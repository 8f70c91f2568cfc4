import Mathlib.Algebra.GroupWithZero.Nat
import Mathlib.Order.Monotone.Basic
import TileClient.Proofs.Rehearsal.Clockwork
import TileClient.Rehearsal.Acts

/-! The timeline of a search. A discovery asks, waits for an answer no longer than its timeout,
rests and asks again; the first answer in time that names a server ends it. -/
namespace TileClient.Rehearsal

/-- The servers that were named, and when. -/
def DiscoveryAct.found (act : DiscoveryAct) : List (Nat × Endpoint) :=
  act.handled.reverse.filterMap fun (time, _, endpoint?) => endpoint?.map (time, ·)

/-- A search: when it begins, how long a discovery rests between its requests and waits for an
answer, and how the directory answers, one request after another. Once all answers are used up
the directory is never ready. -/
structure Hunt where
  start : Nat
  retryDelay : Nat
  timeout : Nat
  answers : List (Timed (Except Fault String))
  rests : 0 < retryDelay

namespace Hunt

variable (h : Hunt) {i j n time : Nat}

def script : Script := .given h.answers []

def answer (i : Nat) : Timed (Except Fault String) := h.answers.getD i h.script.usualReply

def span (i : Nat) : Nat :=
  match (h.answer i).delay with
  | some delay => min delay h.timeout
  | none => h.timeout

/-- When a request begins, if none before it has found a server. -/
def begins (i : Nat) : Nat := h.start + ((List.range i).map fun j => h.span j + h.retryDelay).sum

/-- The answer to a request comes in time and names a server. -/
structure Names (i delay : Nat) (endpoint : Endpoint) : Prop where
  comes : (h.answer i).delay = some delay
  inTime : delay ≤ h.timeout
  server : (h.answer i).outcome.bind Wire.Reply.assigned = .ok endpoint

/-- So many requests have found no server. -/
def Vain (count : Nat) : Prop := ∀ i < count, ∀ delay endpoint, ¬ h.Names i delay endpoint

/-- A discovery that nobody has asked for anything yet, when it is time to begin. -/
def opening : Stage DiscoveryAct :=
  Stage.passThrough (Stage.serve DiscoveryAct.part) h.start
    ⟨.opening h.retryDelay h.timeout h.script, .fresh⟩

/-- The search after some stretches of time, with every report handed over at once. -/
def after (stretches : List Nat) : Stage DiscoveryAct :=
  stretches.foldl (fun stage ms => stage.passThrough (Stage.serve DiscoveryAct.part) ms)
    ((DiscoveryAct.step h.opening Discovery.discover).serve DiscoveryAct.part)

def ends (i : Nat) : Nat := h.begins i + h.span i

theorem begins_succ (i : Nat) : h.begins (i + 1) = h.ends i + h.retryDelay := by
  simp only [begins, ends, List.range_succ, List.map_append, List.sum_append, List.map_cons,
    List.map_nil, List.sum_cons, List.sum_nil]
  omega

theorem ends_lt_begins_succ (i : Nat) : h.ends i < h.begins (i + 1) := by
  have := h.rests
  rw [begins_succ]
  omega

theorem begins_le_ends (i : Nat) : h.begins i ≤ h.ends i := Nat.le_add_right _ _

theorem begins_mono (before : i ≤ j) : h.begins i ≤ h.begins j := by
  refine monotone_nat_of_le_succ (fun k => ?_) before
  exact Nat.le_trans (h.begins_le_ends k) (Nat.le_of_lt (h.ends_lt_begins_succ k))

theorem ends_lt_begins (before : i < j) : h.ends i < h.begins j :=
  Nat.lt_of_lt_of_le (h.ends_lt_begins_succ i) (h.begins_mono before)

def outcome (i : Nat) : Except Fault String := (withinTimeout h.timeout (h.answer i)).2

theorem withinTimeout_eq (i : Nat) :
    withinTimeout h.timeout (h.answer i) = (h.span i, h.outcome i) := by
  refine Prod.ext ?_ rfl
  unfold withinTimeout span
  cases (h.answer i).delay with
  | none => rfl
  | some delay =>
    dsimp only
    split
    · exact (Nat.min_eq_left ‹_›).symm
    · exact (Nat.min_eq_right (Nat.le_of_lt (Nat.lt_of_not_le ‹_›))).symm

theorem ok_of_toOption {ε α : Type} {e : Except ε α} {a : α} (h : e.toOption = some a) :
    e = .ok a := by
  cases e <;> cases h
  rfl

/-- The server that a request finds. -/
def found? (i : Nat) : Option Endpoint := ((h.outcome i).bind Wire.Reply.assigned).toOption

theorem Names.span_eq {h : Hunt} {delay : Nat} {endpoint : Endpoint}
    (names : h.Names n delay endpoint) : h.span n = delay := by
  rw [span, names.comes]
  exact Nat.min_eq_left names.inTime

theorem Names.found {h : Hunt} {delay : Nat} {endpoint : Endpoint}
    (names : h.Names n delay endpoint) : h.found? n = some endpoint := by
  have body : h.outcome n = (h.answer n).outcome := by
    rw [outcome, withinTimeout, names.comes]
    exact congrArg Prod.snd (if_pos names.inTime)
  rw [found?, body, names.server]
  rfl

theorem exists_names {h : Hunt} {endpoint : Endpoint} (found : h.found? i = some endpoint) :
    ∃ delay, h.Names i delay endpoint := by
  unfold found? outcome withinTimeout at found
  split at found
  · rename_i delay comes
    split at found
    · exact ⟨delay, comes, ‹_›, ok_of_toOption found⟩
    · cases found
  · cases found

theorem Vain.le {h : Hunt} {delay : Nat} {endpoint : Endpoint} (vain : h.Vain i)
    (names : h.Names n delay endpoint) : i ≤ n :=
  Nat.le_of_not_lt fun before => vain n before delay endpoint names

theorem Vain.mono {h : Hunt} (vain : h.Vain n) (fewer : i ≤ n) : h.Vain i :=
  fun j before => vain j (Nat.lt_of_lt_of_le before fewer)

theorem Vain.succ {h : Hunt} (vain : h.Vain i) (none : h.found? i = none) : h.Vain (i + 1) := by
  intro j before delay endpoint names
  rcases Nat.lt_succ_iff_lt_or_eq.mp before with old | rfl
  · exact vain j old delay endpoint names
  · cases names.found.symm.trans none

/-- Everything behind a discovery that has asked a number of times. -/
def back (time asked nextId : Nat) (tasks : List Entry) (ready : List Nat)
    (mailbox : List Message) : Backstage where
  now := time
  retryDelay := h.retryDelay
  timeout := h.timeout
  script := { h.script with replies := h.answers.drop asked }
  tasks
  nextId
  ready
  mailbox
  links := []
  fetches := ((List.range asked).map h.begins).reverse
  dialled := []

/-- The reports before a request, newest first, if none before it has found a server. -/
def log : Nat → List (Nat × DiscoveryMessage × Option Endpoint)
  | 0 => []
  | i + 1 => (h.begins (i + 1), .retryDue (i + 1), none) ::
      (h.ends i, .response (i + 1) (h.outcome i), none) :: log i

theorem length_log (i : Nat) : (h.log i).length = 2 * i := by
  induction i with
  | zero => rfl
  | succ i ih =>
    simp only [log, List.length_cons, ih]
    omega

/-- Nothing has begun. -/
def dormant (time : Nat) : Stage DiscoveryAct := ⟨h.back time 0 0 [] [] [], .fresh⟩

/-- A request is to begin. -/
def asking (i : Nat) : Stage DiscoveryAct :=
  ⟨h.back (h.begins i) i (2 * i + 1) [⟨2 * i, .request (i + 1) .unbegun, false⟩] [2 * i] [],
    ⟨⟨i + 1, true, some (i + 1), none⟩, h.log i⟩⟩

/-- A request is under way. -/
def waiting (i time : Nat) (ready : List Nat) : Stage DiscoveryAct :=
  ⟨h.back time (i + 1) (2 * i + 1)
      [⟨2 * i, .request (i + 1) (.waiting (some (h.ends i)) (h.outcome i)), false⟩] ready [],
    ⟨⟨i + 1, true, some (i + 1), none⟩, h.log i⟩⟩

/-- A request has come to its end. -/
def answered (i : Nat) : Stage DiscoveryAct :=
  ⟨h.back (h.ends i) (i + 1) (2 * i + 1) [] [] [.discovery (.response (i + 1) (h.outcome i))],
    ⟨⟨i + 1, true, some (i + 1), none⟩, h.log i⟩⟩

/-- A server is found. -/
def finished (i time : Nat) (endpoint : Endpoint) : Stage DiscoveryAct :=
  ⟨h.back time (i + 1) (2 * i + 1) [] [] [],
    ⟨⟨i + 1, false, none, none⟩,
      (h.ends i, .response (i + 1) (h.outcome i), some endpoint) :: h.log i⟩⟩

/-- What a discovery is that rests after a request in vain. -/
def idling (i : Nat) : DiscoveryAct :=
  ⟨⟨i + 1, true, none, some (i + 1)⟩, (h.ends i, .response (i + 1) (h.outcome i), none) :: h.log i⟩

theorem found_cons (d : Discovery) (time : Nat) (m : DiscoveryMessage) (endpoint? : Option Endpoint)
    (handled : List (Nat × DiscoveryMessage × Option Endpoint)) :
    DiscoveryAct.found ⟨d, (time, m, endpoint?) :: handled⟩ =
      DiscoveryAct.found ⟨d, handled⟩ ++ (endpoint?.map (time, ·)).toList := by
  cases endpoint? <;> simp [DiscoveryAct.found]

theorem found_log (d : Discovery) (i : Nat) : DiscoveryAct.found ⟨d, h.log i⟩ = [] := by
  induction i with
  | zero => rfl
  | succ i ih => simp [log, found_cons, ih]

theorem found_idling (i : Nat) : (h.idling i).found = [] := by
  simp [idling, found_cons, found_log]

/-- A pause is to begin. -/
def pausing (i : Nat) : Stage DiscoveryAct :=
  ⟨h.back (h.ends i) (i + 1) (2 * i + 2) [⟨2 * i + 1, .pause (i + 1) .unbegun, false⟩] [2 * i + 1]
    [], h.idling i⟩

/-- A pause is under way. -/
def resting (i time : Nat) (ready : List Nat) : Stage DiscoveryAct :=
  ⟨h.back time (i + 1) (2 * i + 2)
    [⟨2 * i + 1, .pause (i + 1) (.waiting (some (h.begins (i + 1))) ()), false⟩] ready [],
    h.idling i⟩

/-- A pause has come to its end. -/
def rested (i : Nat) : Stage DiscoveryAct :=
  ⟨h.back (h.begins (i + 1)) (i + 1) (2 * i + 2) [] [] [.discovery (.retryDue (i + 1))], h.idling i⟩

open Stage DiscoveryAct

variable {h}

theorem nextReply_of_drop (asked : Nat) :
    Script.nextReply { h.script with replies := h.answers.drop asked } =
      (h.answer asked, { h.script with replies := h.answers.drop (asked + 1) }) := by
  simp [Script.nextReply, answer]

theorem fetches_succ (asked : Nat) :
    ((List.range (asked + 1)).map h.begins).reverse =
      h.begins asked :: ((List.range asked).map h.begins).reverse := by
  simp [List.range_succ]

theorem begin_asking (i : Nat) :
    ({ (h.asking i).back with ready := [] }).begin (.request (i + 1) .unbegun) =
      (h.back (h.begins i) (i + 1) (2 * i + 1) [⟨2 * i, .request (i + 1) .unbegun, false⟩] [] [],
        .request (i + 1) (.waiting (some (h.ends i)) (h.outcome i))) := by
  simp [Backstage.begin, asking, back, nextReply_of_drop, withinTimeout_eq, fetches_succ, ends]

theorem settle_asking_at_once (atOnce : h.span i = 0) : (h.asking i).settle = h.answered i := by
  have now : h.ends i = h.begins i := by rw [ends, atOnce, Nat.add_zero]
  have settled := Backstage.settle_ends (b := (h.asking i).back) rfl rfl (begin_asking i) rfl
    (Nat.le_of_eq now)
  rw [Stage.settle, settled, answered, now]
  rfl

theorem settle_asking (later : 0 < h.span i) :
    (h.asking i).settle = h.waiting i (h.begins i) [] := by
  have settled := Backstage.settle_waits (b := (h.asking i).back) rfl rfl (begin_asking i) rfl
    (Nat.lt_add_of_pos_right later)
  rw [Stage.settle, settled]
  rfl

theorem settle_waiting : (h.waiting i (h.ends i) [2 * i]).settle = h.answered i := by
  have settled := Backstage.settle_ends (b := (h.waiting i (h.ends i) [2 * i]).back) rfl rfl rfl rfl
    (Nat.le_refl (h.ends i))
  rw [Stage.settle, settled]
  rfl

theorem settle_pausing : (h.pausing i).settle = h.resting i (h.ends i) [] := by
  have settled := Backstage.settle_waits (b := (h.pausing i).back) rfl rfl rfl rfl
    (Nat.lt_add_of_pos_right h.rests)
  rw [Stage.settle, settled, resting, begins_succ]
  rfl

theorem settle_resting : (h.resting i (h.begins (i + 1)) [2 * i + 1]).settle = h.rested i := by
  have settled := Backstage.settle_ends (b := (h.resting i (h.begins (i + 1)) [2 * i + 1]).back)
    rfl rfl rfl rfl (Nat.le_refl (h.begins (i + 1)))
  rw [Stage.settle, settled]
  rfl

theorem handNext_rested : (h.rested i).handNext part = h.asking (i + 1) := by
  simp [rested, handNext, hand, part, idling, back, Discovery.handle, Discovery.isCurrent,
    Discovery.issueRequest, Backstage.performAll, Backstage.perform, Backstage.spawn, asking, log]
  omega

theorem handNext_in_vain (vain : h.found? i = none) :
    (h.answered i).handNext part = h.pausing i := by
  unfold found? at vain
  cases assigned : (h.outcome i).bind Wire.Reply.assigned with
  | ok endpoint => simp [assigned, Except.toOption] at vain
  | error fault =>
    simp [answered, handNext, hand, part, idling, back, Discovery.handle, Discovery.isCurrent,
      assigned, Discovery.schedulePause, Backstage.performAll, Backstage.perform, Backstage.spawn,
      pausing]

theorem handNext_found {endpoint : Endpoint} (found : h.found? i = some endpoint) :
    (h.answered i).handNext part = h.finished i (h.ends i) endpoint := by
  have assigned : (h.outcome i).bind Wire.Reply.assigned = .ok endpoint := ok_of_toOption found
  simp [answered, handNext, hand, part, back, Discovery.handle, Discovery.isCurrent, assigned,
    Discovery.cancel, Discovery.abortTasks, Backstage.performAll, finished]

variable (h) in
/-- The stages of a search on which all is quiet. -/
inductive Quiet (time : Nat) : Stage DiscoveryAct → Prop where
  | waiting {i : Nat} (vain : h.Vain i) (since : h.begins i ≤ time) (before : time < h.ends i) :
      Quiet time (h.waiting i time [])
  | resting {i : Nat} (vain : h.Vain (i + 1)) (since : h.ends i ≤ time)
      (before : time < h.begins (i + 1)) : Quiet time (h.resting i time [])
  | finished {i delay : Nat} {endpoint : Endpoint} (vain : h.Vain i)
      (names : h.Names i delay endpoint) (since : h.ends i ≤ time) :
      Quiet time (h.finished i time endpoint)

variable (h) in
/-- The stages of a search on which something is to be done now, or all is quiet. -/
inductive Woken : Nat → Stage DiscoveryAct → Prop where
  | asking {i : Nat} (vain : h.Vain i) : Woken (h.begins i) (h.asking i)
  | waiting {i : Nat} (vain : h.Vain i) : Woken (h.ends i) (h.waiting i (h.ends i) [2 * i])
  | resting {i : Nat} (vain : h.Vain (i + 1)) :
      Woken (h.begins (i + 1)) (h.resting i (h.begins (i + 1)) [2 * i + 1])
  | quiet {time : Nat} {stage : Stage DiscoveryAct} (quiet : h.Quiet time stage) : Woken time stage

variable {stage : Stage DiscoveryAct}

theorem Woken.now (woken : h.Woken time stage) : stage.back.now = time := by
  cases woken with
  | asking | waiting | resting => rfl
  | quiet quiet => cases quiet <;> rfl

theorem Quiet.served (quiet : h.Quiet time stage) (limit : Nat) :
    stage.serveWithin part limit = stage := by
  have still : stage.settle = stage := by
    have ready : stage.back.ready = [] := by cases quiet <;> rfl
    rw [settle, Backstage.settle_of_still ready]
  exact serveWithin_of_quiet still (by cases quiet <;> rfl) limit

theorem quiet_of_answered (vain : h.Vain i) (settled : stage.settle = h.answered i) (limit : Nat) :
    h.Quiet (h.ends i) (stage.serveWithin part (limit + 1)) := by
  rw [serveWithin_of_report settled rfl]
  cases found : h.found? i with
  | none =>
    rw [handNext_in_vain found, serveWithin_of_quiet settle_pausing rfl]
    exact .resting (vain.succ found) (Nat.le_refl _) (h.ends_lt_begins_succ i)
  | some endpoint =>
    obtain ⟨delay, names⟩ := exists_names found
    have finished := Quiet.finished vain names (Nat.le_refl _)
    rw [handNext_found found, finished.served]
    exact finished

theorem quiet_of_asking (vain : h.Vain i) (limit : Nat) :
    h.Quiet (h.begins i) ((h.asking i).serveWithin part (limit + 1)) := by
  rcases Nat.eq_zero_or_pos (h.span i) with atOnce | later
  · have answered := quiet_of_answered vain (settle_asking_at_once atOnce) limit
    rwa [ends, atOnce] at answered
  · rw [serveWithin_of_quiet (settle_asking later) rfl]
    exact .waiting vain (Nat.le_refl _) (Nat.lt_add_of_pos_right later)

theorem Woken.quiet_of_serve (woken : h.Woken time stage) : h.Quiet time (stage.serve part) := by
  obtain ⟨limit, enough⟩ : ∃ limit, quietLimit stage.back = limit + 2 := ⟨_, rfl⟩
  rw [serve, enough]
  cases woken with
  | asking vain => exact quiet_of_asking vain (limit + 1)
  | waiting vain => exact quiet_of_answered vain settle_waiting (limit + 1)
  | resting vain =>
    rw [serveWithin_of_report settle_resting rfl, handNext_rested]
    exact quiet_of_asking vain limit
  | quiet quiet =>
    rw [quiet.served]
    exact quiet

private theorem reach_waiting {id due target : Nat} {task : Task}
    (alone : stage.back.tasks = [⟨id, task, false⟩]) (still : stage.back.ready = [])
    (waits : task.due? = some due) (before : time < target) (later : time < due)
    (woken : h.Woken due { stage with back := { stage.back with now := due, ready := [id] } })
    (quiet : target < due →
      h.Quiet target { stage with back := { stage.back with now := target } }) :
    ∃ next, stage.back.nextStop target = next ∧ time < next ∧ next ≤ target ∧
      h.Woken next { stage with back := stage.back.reach next } := by
  rcases Backstage.reach_alone alone still waits target with
    ⟨inTime, stop, reached⟩ | ⟨early, stop, reached⟩
  · refine ⟨due, stop, later, inTime, ?_⟩
    rw [reached]
    exact woken
  · refine ⟨target, stop, before, Nat.le_refl _, ?_⟩
    rw [reached]
    exact .quiet (quiet early)

/-- From a quiet stage the clock goes to the next time at which something is to be done, or to the
target. -/
theorem Quiet.reach (quiet : h.Quiet time stage) {target : Nat} (before : time < target) :
    ∃ next, stage.back.nextStop target = next ∧ time < next ∧ next ≤ target ∧
      h.Woken next { stage with back := stage.back.reach next } := by
  have still {past : Nat} (since : past ≤ time) : past ≤ target :=
    Nat.le_trans since (Nat.le_of_lt before)
  cases quiet with
  | @waiting i vain since later =>
    exact reach_waiting rfl rfl rfl before later (.waiting vain) (.waiting vain (still since))
  | @resting i vain since later =>
    exact reach_waiting rfl rfl rfl before later (.resting vain) (.resting vain (still since))
  | @finished i delay endpoint vain names since =>
    obtain ⟨stop, reached⟩ :=
      Backstage.reach_of_nobody (b := (h.finished i time endpoint).back) rfl target
    refine ⟨target, stop, before, Nat.le_refl _, ?_⟩
    rw [reached]
    exact .quiet (.finished vain names (still since))

theorem Woken.passWithin (woken : h.Woken time stage) {target instants : Nat}
    (before : time ≤ target) (enough : target ≤ time + instants) :
    h.Woken target (stage.passWithin (serve part) target instants) := by
  -- Every stop of the clock is later than the one before, so that the instants are enough.
  induction instants generalizing time stage with
  | zero =>
    obtain rfl : time = target := by omega
    exact woken
  | succ instants ih =>
    have now := woken.now
    rcases Nat.lt_or_eq_of_le before with strictly | rfl
    · obtain ⟨next, stop, later, within, reached⟩ := woken.quiet_of_serve.reach strictly
      rw [passWithin_of_before (lt_of_eq_of_lt now strictly), stop]
      exact ih reached within (by omega)
    · rw [passWithin_of_reached (Nat.le_of_eq now.symm)]
      exact woken

theorem Woken.passThrough (woken : h.Woken time stage) (ms : Nat) :
    h.Quiet (time + ms) (stage.passThrough (serve part) ms) := by
  refine Woken.quiet_of_serve ?_
  rw [Stage.pass, woken.now]
  exact woken.passWithin (Nat.le_add_right _ _) (Nat.le_refl _)

theorem serve_dormant (h : Hunt) (time : Nat) : (h.dormant time).serve part = h.dormant time :=
  serveWithin_of_quiet rfl rfl _

theorem opening_eq (h : Hunt) : h.opening = h.dormant h.start := by
  change serve part (Stage.passWithin (serve part) (0 + h.start) h.start (h.dormant 0)) = _
  rw [Nat.zero_add]
  cases h.start with
  | zero => exact h.serve_dormant 0
  | succ target =>
    obtain ⟨stop, reached⟩ := Backstage.reach_of_nobody (b := (h.dormant 0).back) rfl (target + 1)
    rw [passWithin_of_before (Nat.succ_pos target), serve_dormant, stop, reached]
    have there : target + 1 ≤ (h.dormant (target + 1)).back.now := Nat.le_refl _
    change serve part ((h.dormant (target + 1)).passWithin (serve part) (target + 1) target) = _
    rw [passWithin_of_reached there, serve_dormant]

theorem quiet_after (h : Hunt) (stretches : List Nat) :
    h.Quiet (h.start + stretches.sum) (h.after stretches) := by
  have begun : h.Quiet h.start ((step h.opening Discovery.discover).serve part) := by
    rw [opening_eq]
    exact (Woken.asking (i := 0) fun _ none => absurd none (Nat.not_lt_zero _)).quiet_of_serve
  unfold after
  generalize (step h.opening Discovery.discover).serve part = stage at begun
  generalize h.start = time at begun
  induction stretches generalizing time stage with
  | nil => exact begun
  | cons ms stretches ih =>
    rw [List.sum_cons, ← Nat.add_assoc]
    exact ih _ _ ((Woken.quiet begun).passThrough ms)

/-- Which requests have begun. -/
theorem Quiet.asked (quiet : h.Quiet time stage) :
    ∃ count, stage.back.fetches.reverse = (List.range count).map h.begins ∧
      ∀ i, i < count ↔ h.begins i ≤ time ∧ h.Vain i := by
  have counted {i : Nat} (vain : h.Vain i) (since : h.begins i ≤ time)
      (last : ∀ j, i < j → h.Vain j → time < h.begins j) (j : Nat) :
      j < i + 1 ↔ h.begins j ≤ time ∧ h.Vain j := by
    constructor
    · intro before
      have fewer := Nat.le_of_lt_succ before
      exact ⟨Nat.le_trans (h.begins_mono fewer) since, vain.mono fewer⟩
    · rintro ⟨begun, yet⟩
      refine Nat.lt_succ_of_le (Nat.le_of_not_lt fun beyond => ?_)
      exact absurd begun (Nat.not_le_of_lt (last j beyond yet))
  cases quiet with
  | @waiting i vain since before =>
    refine ⟨i + 1, List.reverse_reverse _, counted vain since fun j beyond _ => ?_⟩
    exact Nat.lt_trans before (h.ends_lt_begins beyond)
  | @resting i vain since before =>
    have begun := Nat.le_trans (h.begins_le_ends i) since
    refine ⟨i + 1, List.reverse_reverse _, counted (vain.mono (Nat.le_succ i)) begun ?_⟩
    exact fun j beyond _ => Nat.lt_of_lt_of_le before (h.begins_mono beyond)
  | @finished i delay endpoint vain names since =>
    have begun := Nat.le_trans (h.begins_le_ends i) since
    refine ⟨i + 1, List.reverse_reverse _, counted vain begun fun j beyond yet => ?_⟩
    exact absurd (yet.le names) (Nat.not_le_of_lt beyond)

/-- Before the answer that names a server, nothing is found; then the search is over. -/
theorem Quiet.of_names (quiet : h.Quiet time stage) {delay : Nat} {endpoint : Endpoint}
    (vain : h.Vain n) (names : h.Names n delay endpoint) :
    time < h.begins n + delay ∧ stage.actor.found = [] ∧ stage.actor.discovery.active = true ∨
      h.begins n + delay ≤ time ∧ stage = h.finished n time endpoint := by
  have due : h.begins n + delay = h.ends n := by rw [ends, names.span_eq]
  rw [due]
  -- A request under way or in vain is not a later one than the request that finds the server.
  cases quiet with
  | @waiting i early since before =>
    refine .inl ⟨?_, ?_, rfl⟩
    · rcases Nat.lt_or_eq_of_le (early.le names) with sooner | rfl
      · have := h.ends_lt_begins sooner
        have := h.begins_le_ends n
        omega
      · exact before
    · exact h.found_log _ i
  | @resting i early since before =>
    refine .inl ⟨?_, ?_, rfl⟩
    · have := h.begins_mono (early.le names)
      have := h.begins_le_ends n
      omega
    · exact h.found_idling i
  | @finished i other place early others since =>
    obtain rfl : i = n := Nat.le_antisymm (early.le names) (vain.le others)
    obtain rfl : place = endpoint := Option.some.inj (others.found.symm.trans names.found)
    exact .inr ⟨since, rfl⟩

theorem Quiet.of_vain (quiet : h.Quiet time stage) (vain : ∀ n, h.Vain n) :
    stage.actor.found = [] ∧ stage.actor.discovery.active = true := by
  cases quiet with
  | @waiting i => exact ⟨h.found_log _ i, rfl⟩
  | @resting i => exact ⟨h.found_idling i, rfl⟩
  | @finished i delay endpoint _ names =>
    exact absurd names (vain (i + 1) i (Nat.lt_succ_self i) delay endpoint)

/-- Whatever the directory answers, and however late, a search keeps to its timeline: each request
begins as soon as its time has come, unless one before it has found a server. The first answer that
names a server in time is passed on once, when it comes, and then there is nothing left of the
search. Without such an answer it goes on without end. -/
theorem search_keeps_to_its_timeline (h : Hunt) (stretches : List Nat) :
    let stage := h.after stretches
    let time := h.start + stretches.sum
    let fetches := stage.back.fetches.reverse
    (∃ count, fetches = (List.range count).map h.begins ∧
      ∀ i, i < count ↔ h.begins i ≤ time ∧ h.Vain i) ∧
    (∀ n delay endpoint, h.Vain n → h.Names n delay endpoint →
      (time < h.begins n + delay →
        stage.actor.found = [] ∧ stage.actor.discovery.active = true) ∧
      (h.begins n + delay ≤ time →
        stage.actor.found = [(h.begins n + delay, endpoint)] ∧ fetches.length = n + 1 ∧
          stage.actor.discovery = ⟨n + 1, false, none, none⟩ ∧ stage.back.tasks = [] ∧
          stage.back.mailbox = [] ∧ stage.actor.handled.length = 2 * n + 1)) ∧
    ((∀ n, h.Vain n) → stage.actor.found = [] ∧ stage.actor.discovery.active = true ∧
      ∀ i, h.begins i ≤ time → fetches[i]? = some (h.begins i)) := by
  intro stage time fetches
  have quiet : h.Quiet time stage := h.quiet_after stretches
  refine ⟨quiet.asked, ?_, ?_⟩
  · intro n delay endpoint vain names
    rcases quiet.of_names vain names with ⟨early, unfound⟩ | ⟨past, finished⟩
    · exact ⟨fun _ => unfound, fun past => absurd past (Nat.not_le_of_lt early)⟩
    · refine ⟨fun early => absurd past (Nat.not_le_of_lt early), fun _ => ?_⟩
      have due : h.begins n + delay = h.ends n := by rw [ends, names.span_eq]
      simp only [fetches, finished, due]
      refine ⟨?_, ?_, rfl, rfl, rfl, ?_⟩
      · simp [Hunt.finished, found_cons, found_log]
      · simp [Hunt.finished, back]
      · simp [Hunt.finished, length_log]
  · intro vain
    obtain ⟨unfound, active⟩ := quiet.of_vain vain
    obtain ⟨count, all, counted⟩ := quiet.asked
    refine ⟨unfound, active, fun i begun => ?_⟩
    have among : i < count := (counted i).mpr ⟨begun, vain i⟩
    simp [fetches, all, among]

/-- A server that is named too late is not taken, and one that is named in time is, once. -/
theorem search_keeps_to_its_timeline_late_answer :
    let h : Hunt := ⟨3, 10, 5,
      [⟨some 9, .ok "[\"OK\",\"late:1\"]"⟩, ⟨some 5, .ok "[\"OK\",\"a:1\"]"⟩], by decide⟩
    (h.after [10, 13]).actor.found = [(23, ⟨"a", 1⟩)] := by
  intro h
  have vain : h.Vain 1 := by
    intro i before delay endpoint names
    obtain rfl : i = 0 := by omega
    obtain rfl : 9 = delay := Option.some.inj names.comes
    exact absurd names.inTime (by decide)
  have names : h.Names 1 5 ⟨"a", 1⟩ :=
    ⟨rfl, by decide, ok_of_toOption (by decide +kernel)⟩
  exact (((search_keeps_to_its_timeline h [10, 13]).2.1 1 5 ⟨"a", 1⟩ vain names).2 (by decide)).1

end Hunt

end TileClient.Rehearsal

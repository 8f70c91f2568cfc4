import Mathlib.Data.List.Nodup
import TileClient.Proofs.Input.Coalescing

/-! Who is to run and who is to be woken. A task that waits for a time has an alarm for it or is to
run already, so that no task is forgotten when the others settle or time passes. -/
namespace TileClient.Input

def Producer.waitsFor? (p : Producer) : Option Nat :=
  if p.begun && !p.ended then some p.due else none

namespace Autoplay

variable {a b : Autoplay} {role r : Role}

theorem wake_eq (a : Autoplay) (role : Role) :
    a.wake role = { a with ready := (a.wake role).ready } := by
  unfold wake
  split <;> rfl

theorem ready_wake (same : b.ready = a.ready) : (b.wake role).ready = (a.wake role).ready := by
  unfold wake
  rw [same]
  split <;> simp only [same]

theorem mem_wake : r ∈ (a.wake role).ready ↔ r ∈ a.ready ∨ r = role := by
  unfold wake
  split
  · rename_i known
    rw [List.contains_iff_mem] at known
    exact ⟨.inl, fun member => member.elim id (· ▸ known)⟩
  · rw [List.mem_append, List.mem_singleton]

theorem nodup_wake (once : a.ready.Nodup) : (a.wake role).ready.Nodup := by
  unfold wake
  split
  · exact once
  · rename_i unknown
    rw [List.contains_iff_mem] at unknown
    exact List.Nodup.append once (List.nodup_singleton role) (by simpa using unknown)

theorem wakeAll_eq (roles : List Role) (a : Autoplay) :
    roles.foldl wake a = { a with ready := (roles.foldl wake a).ready } := by
  induction roles generalizing a with
  | nil => rfl
  | cons role roles ih =>
    rw [List.foldl_cons, ih, wake_eq]

theorem mem_wakeAll {roles : List Role} :
    r ∈ (roles.foldl wake a).ready ↔ r ∈ a.ready ∨ r ∈ roles := by
  induction roles generalizing a with
  | nil => simp
  | cons role roles ih => rw [List.foldl_cons, ih, mem_wake, List.mem_cons, or_assoc]

theorem nodup_wakeAll (once : a.ready.Nodup) (roles : List Role) :
    (roles.foldl wake a).ready.Nodup := by
  induction roles generalizing a with
  | nil => exact once
  | cons role roles ih => exact ih (nodup_wake once)

theorem setAlarm_eq (a : Autoplay) (role : Role) (due : Option Nat) :
    a.setAlarm role due = { a with alarms := (a.setAlarm role due).alarms } := by
  unfold setAlarm
  split
  · rfl
  · split <;> rfl

/-- A task has no alarm but the one that is set. -/
theorem mem_setAlarm {due : Option Nat} {t : Nat}
    (single : ∀ t t', (role, t) ∈ a.alarms → (role, t') ∈ a.alarms → t = t') :
    (r, t) ∈ (a.setAlarm role due).alarms ↔
      r ≠ role ∧ (r, t) ∈ a.alarms ∨ r = role ∧ due = some t := by
  cases due with
  | none => simp [setAlarm, and_comm]
  | some due =>
    simp only [setAlarm]
    split
    · rename_i known
      rw [List.contains_iff_mem] at known
      constructor
      · intro member
        by_cases same : r = role
        · subst same
          exact .inr ⟨rfl, congrArg some (single _ _ known member)⟩
        · exact .inl ⟨same, member⟩
      · rintro (⟨-, member⟩ | ⟨rfl, same⟩)
        · exact member
        · exact Option.some.inj same ▸ known
    · simp only [List.mem_append, List.mem_filter, List.mem_singleton, Prod.mk.injEq, bne_iff_ne,
        Option.some.injEq, eq_comm (a := t)]
      rw [and_comm (a := (r, t) ∈ a.alarms)]

/-- An alarm that is set already is not set again. -/
theorem setAlarm_of_known {due : Option Nat} (known : ∀ t, (role, t) ∈ a.alarms ↔ due = some t) :
    a.setAlarm role due = a := by
  cases due with
  | none =>
    have others : ∀ alarm ∈ a.alarms, alarm.1 ≠ role := by
      rintro ⟨r, t⟩ member rfl
      exact nomatch (known t).mp member
    have all : a.alarms.filter (·.1 != role) = a.alarms := by simpa using others
    simp only [setAlarm, all]
  | some due =>
    have set : a.alarms.contains (role, due) = true := List.contains_iff_mem.mpr ((known due).mpr rfl)
    simp only [setAlarm, set, if_true]

theorem reach_eq (a : Autoplay) (time : Nat) : a.reach time = { a with
    now := time
    ready := (a.reach time).ready
    alarms := a.alarms.filter (time < ·.2) } := by
  unfold reach
  exact wakeAll_eq _ _

theorem mem_reach {time : Nat} :
    r ∈ (a.reach time).ready ↔ r ∈ a.ready ∨ ∃ t ≤ time, (r, t) ∈ a.alarms := by
  unfold reach
  rw [mem_wakeAll]
  simp [and_comm]

theorem nodup_reach (once : a.ready.Nodup) (time : Nat) : (a.reach time).ready.Nodup :=
  nodup_wakeAll (by exact once) _

theorem nextStop_le (a : Autoplay) (target : Nat) : a.nextStop target ≤ target := by
  unfold nextStop
  cases first : (a.alarms.map (·.2)).min?.filter (· ≤ target) with
  | none => exact Nat.le_refl _
  | some t => exact of_decide_eq_true (Option.filter_eq_some_iff.mp first).2

theorem nextStop_le_alarm {target t : Nat} (alarm : (r, t) ∈ a.alarms) : a.nextStop target ≤ t := by
  have member : t ∈ a.alarms.map (·.2) := List.mem_map.mpr ⟨_, alarm, rfl⟩
  unfold nextStop
  cases least : (a.alarms.map (·.2)).min? with
  | none =>
    rw [List.min?_eq_none_iff] at least
    rw [least] at member
    cases member
  | some first =>
    have before : first ≤ t := (List.min?_eq_some_iff.mp least).2 t member
    by_cases arrives : first ≤ target
    · simpa [Option.filter, arrives] using before
    · simpa [Option.filter, arrives] using Nat.le_trans (Nat.le_of_not_le arrives) before

theorem le_nextStop {floor target : Nat} (ahead : floor ≤ target)
    (later : ∀ r t, (r, t) ∈ a.alarms → floor ≤ t) : floor ≤ a.nextStop target := by
  unfold nextStop
  cases first : (a.alarms.map (·.2)).min?.filter (· ≤ target) with
  | none => exact ahead
  | some t =>
    obtain ⟨least, -⟩ := Option.filter_eq_some_iff.mp first
    obtain ⟨⟨r, t⟩, alarm, rfl⟩ := List.mem_map.mp (List.min?_mem least)
    exact later r t alarm

def waits? (a : Autoplay) : Role → Option Nat
  | .dispatcher => a.dispatcher.waitsFor?
  | .producer => a.producer.bind Producer.waitsFor?

def hasRun (a : Autoplay) : Role → Bool
  | .dispatcher => a.dispatcher.begun
  | .producer => a.producer.all (·.begun)

/-- The alarms are those of tasks that wait, and a task that is not to run has its alarm. -/
structure Wakeful (a : Autoplay) : Prop where
  once : a.ready.Nodup
  alarms : ∀ r t, (r, t) ∈ a.alarms → a.waits? r = some t ∧ a.now < t
  waiting : ∀ r t, a.waits? r = some t → (r, t) ∈ a.alarms ∨ r ∈ a.ready ∧ t ≤ a.now
  first : ∀ r, a.hasRun r = false → r ∈ a.ready

namespace Wakeful

theorem single (h : a.Wakeful) {t t' : Nat} (alarm : (r, t) ∈ a.alarms) (alarm' : (r, t') ∈ a.alarms) :
    t = t' :=
  Option.some.inj ((h.alarms r t alarm).1.symm.trans (h.alarms r t' alarm').1)

theorem once_rest (h : a.Wakeful) {rest : List Role} (next : a.ready = role :: rest) : rest.Nodup :=
  (List.nodup_cons.mp (next ▸ h.once)).2

theorem woken (h : a.Wakeful) (now : b.now = a.now) (dispatcher : b.dispatcher = a.dispatcher)
    (producer : b.producer = a.producer) (alarms : b.alarms = a.alarms) (once : b.ready.Nodup)
    (kept : ∀ r ∈ a.ready, r ∈ b.ready) : b.Wakeful := by
  have waits : b.waits? = a.waits? := by
    funext r
    cases r <;> simp only [waits?, dispatcher, producer]
  have hasRun : b.hasRun = a.hasRun := by
    funext r
    cases r <;> simp only [Autoplay.hasRun, dispatcher, producer]
  refine ⟨once, ?_, ?_, ?_⟩
  · rw [waits, now, alarms]
    exact h.alarms
  · rw [waits, now, alarms]
    exact fun r t waits => (h.waiting r t waits).imp_right fun ready => ⟨kept r ready.1, ready.2⟩
  · rw [hasRun]
    exact fun r unrun => kept r (h.first r unrun)

/-- A task that has had its turn waits for its alarm, if for anything. -/
theorem turn (h : a.Wakeful) {rest : List Role} (next : a.ready = role :: rest)
    (now : b.now = a.now) (alarms : b.alarms = a.alarms) (once : b.ready.Nodup)
    (kept : ∀ r ∈ rest, r ∈ b.ready) (ahead : ∀ t, b.waits? role = some t → a.now < t)
    (run : b.hasRun role = true)
    (others : ∀ r, r ≠ role → b.waits? r = a.waits? r ∧ b.hasRun r = a.hasRun r) :
    (b.setAlarm role (b.waits? role)).Wakeful := by
  have stays (r : Role) (other : r ≠ role) (ready : r ∈ a.ready) : r ∈ b.ready := by
    rw [next] at ready
    exact kept r ((List.mem_cons.mp ready).resolve_left other)
  have set (r : Role) (t : Nat) : (r, t) ∈ (b.setAlarm role (b.waits? role)).alarms ↔
      r ≠ role ∧ (r, t) ∈ a.alarms ∨ r = role ∧ b.waits? role = some t := by
    rw [← alarms]
    exact mem_setAlarm fun _ _ alarm alarm' => h.single (alarms ▸ alarm) (alarms ▸ alarm')
  rw [setAlarm_eq] at set ⊢
  refine ⟨once, fun r t alarm => ?_, fun r t waits => ?_, fun r unrun => ?_⟩
  · change b.waits? r = some t ∧ b.now < t
    rw [now]
    rcases (set r t).mp alarm with ⟨other, before⟩ | ⟨rfl, waits⟩
    · rw [(others r other).1]
      exact h.alarms r t before
    · exact ⟨waits, ahead t waits⟩
  · change b.waits? r = some t at waits
    by_cases same : r = role
    · subst same
      exact .inl ((set r t).mpr (.inr ⟨rfl, waits⟩))
    · rw [(others r same).1] at waits
      rcases h.waiting r t waits with alarm | ⟨ready, past⟩
      · exact .inl ((set r t).mpr (.inl ⟨same, alarm⟩))
      · exact .inr ⟨stays r same ready, now ▸ past⟩
  · change b.hasRun r = false at unrun
    have other : r ≠ role := by
      rintro rfl
      exact nomatch unrun.symm.trans run
    exact stays r other (h.first r ((others r other).2 ▸ unrun))

theorem reach (h : a.Wakeful) {time : Nat} (later : a.now ≤ time) : (a.reach time).Wakeful := by
  have once := nodup_reach h.once time
  have woken (r : Role) : r ∈ (a.reach time).ready ↔ _ := mem_reach
  rw [reach_eq] at once woken ⊢
  refine ⟨once, fun r t alarm => ?_, fun r t waits => ?_, fun r unrun => ?_⟩
  · rw [List.mem_filter, decide_eq_true_eq] at alarm
    exact ⟨(h.alarms r t alarm.1).1, alarm.2⟩
  · rcases h.waiting r t waits with alarm | ⟨ready, past⟩
    · rcases Nat.lt_or_ge time t with ahead | due
      · exact .inl (List.mem_filter.mpr ⟨alarm, decide_eq_true ahead⟩)
      · exact .inr ⟨(woken r).mpr (.inr ⟨t, due, alarm⟩), due⟩
    · exact .inr ⟨(woken r).mpr (.inl ready), Nat.le_trans past later⟩
  · exact (woken r).mpr (.inl (h.first r unrun))

theorem idle (h : a.Wakeful) (idle : a.ready = []) :
    (∀ r t, a.waits? r = some t → (r, t) ∈ a.alarms) ∧ ∀ r, a.hasRun r = true := by
  have nobody (r : Role) : r ∉ a.ready := by simp [idle]
  exact ⟨fun r t waits => (h.waiting r t waits).resolve_right fun ready => nobody r ready.1,
    fun r => Bool.not_eq_false _ ▸ fun unrun => nobody r (h.first r unrun)⟩

end Wakeful

/-- How many turns there can be before all wait: the producer may wake the dispatcher. -/
def load (a : Autoplay) : Nat :=
  (if .producer ∈ a.ready then 2 else 0) + if .dispatcher ∈ a.ready then 1 else 0

theorem ready_runDispatcher (a : Autoplay) : a.runDispatcher.ready = a.ready := by
  simp only [runDispatcher]
  rw [setAlarm_eq]

theorem received_runDispatcher (a : Autoplay) : a.runDispatcher.received = a.received := by
  simp only [runDispatcher]
  rw [setAlarm_eq]

/-- Nothing has been sent or received, and nobody but the dispatcher woken. -/
structure Spares (a b : Autoplay) : Prop where
  ready : ∀ r ∈ b.ready, r ∈ a.ready ∨ r = .dispatcher
  outlet : b.outlet = a.outlet
  received : b.received = a.received

namespace Spares

theorem trans {c : Autoplay} (h : a.Spares b) (h' : b.Spares c) : a.Spares c :=
  ⟨fun r woken => (h'.ready r woken).elim (h.ready r) .inr, h'.outlet.trans h.outlet,
    h'.received.trans h.received⟩

theorem setAlarm (h : a.Spares b) (role : Role) (due : Option Nat) :
    a.Spares (b.setAlarm role due) := by
  rw [setAlarm_eq]
  exact ⟨h.ready, h.outlet, h.received⟩

theorem wake (h : a.Spares b) : a.Spares (b.wake .dispatcher) := by
  refine ⟨fun r woken => (mem_wake.mp woken).elim (h.ready r) .inr, ?_, ?_⟩
  · rw [wake_eq]
    exact h.outlet
  · rw [wake_eq]
    exact h.received

theorem queue (a : Autoplay) (move : Board.Direction) : a.Spares (a.queue move).1 := by
  unfold Autoplay.queue
  exact wake ⟨fun _ => .inl, rfl, rfl⟩

theorem endProducer (a : Autoplay) (p : Producer) : a.Spares (a.endProducer p) := by
  unfold Autoplay.endProducer dropHandle
  exact wake ⟨fun _ => .inl, rfl, rfl⟩

theorem runProducer (a : Autoplay) : a.Spares a.runProducer := by
  have kept : a.Spares a := ⟨fun _ => .inl, rfl, rfl⟩
  unfold Autoplay.runProducer
  split
  · exact kept
  · split
    · exact kept
    · split
      · exact endProducer a _
      · split
        · dsimp only
          refine setAlarm ?_ _ _
          exact ⟨fun _ => .inl, rfl, rfl⟩
        · split
          · exact kept
          · split
            · exact endProducer a _
            · rename_i move _ _
              have queued := queue a move
              dsimp only
              split
              · rename_i taken
                rw [taken] at queued
                refine setAlarm ?_ _ _
                exact ⟨queued.ready, queued.outlet, queued.received⟩
              · rename_i refused
                rw [refused] at queued
                exact queued.trans (endProducer ..)

end Spares

theorem load_turn {rest : List Role} (once : a.ready.Nodup) (next : a.ready = role :: rest) :
    load ({ a with ready := rest }.run role) < load a := by
  have fresh : role ∉ rest := (List.nodup_cons.mp (next ▸ once)).1
  unfold load
  cases role with
  | dispatcher =>
    rw [run, ready_runDispatcher]
    simp [next, fresh]
  | producer =>
    have away : .producer ∉ ({ a with ready := rest }.run .producer).ready := fun woken =>
      ((Spares.runProducer { a with ready := rest }).ready _ woken).elim fresh nofun
    have was : .producer ∈ a.ready := next ▸ List.mem_cons_self ..
    rw [if_neg away, if_pos was]
    split <;> split <;> decide

/-- What every turn keeps is kept when the tasks settle, and then nobody is to run. -/
theorem settle_of_turn {P : Autoplay → Prop} (once : ∀ a, P a → a.ready.Nodup)
    (turn : ∀ a role rest, P a → a.ready = role :: rest → P ({ a with ready := rest }.run role))
    (start : P a) : P a.settle ∧ a.settle.ready = [] := by
  have enough : load a ≤ 5 := by
    unfold load
    split <;> split <;> decide
  unfold settle
  generalize 5 = turns at enough
  induction turns generalizing a with
  | zero =>
    refine ⟨start, List.eq_nil_iff_forall_not_mem.mpr fun r ready => ?_⟩
    have ready : r ∈ a.ready := ready
    cases r <;> simp [load, ready] at enough
  | succ turns ih =>
    rw [settleWithin]
    split
    · rename_i idle
      exact ⟨start, idle⟩
    · rename_i role rest next
      exact ih (turn a role rest start next)
        (Nat.le_of_lt_succ (Nat.lt_of_lt_of_le (load_turn (once a start) next) enough))

end Autoplay

end TileClient.Input

import TileClient.Proofs.Rehearsal.Lines

/-! A connection with everything behind it: its owner, its tasks and the servers act in any order.
What servers have put on their links is kept, so that it can be compared with what was told. -/
namespace TileClient.Rehearsal

namespace Backstage

/-- A server changes its link, and turns, and nothing else. -/
theorem eq_of_server {b c : Backstage} {link : Nat} {act : Link → Link × Bool} {done : Bool}
    (h : b.server link act = some (c, done)) :
    ∃ l ready, b.links[link]? = some l ∧ done = (act l).2 ∧
      c = { b.updateLink link fun _ => (act l).1 with ready } := by
  obtain ⟨l, here, acted⟩ := Option.map_eq_some_iff.mp h
  simp only [Prod.mk.injEq] at acted
  obtain ⟨rfl, rfl⟩ := acted
  refine ⟨l, ?_⟩
  split
  · unfold wakePump
    split
    · unfold wake
      split
      · exact ⟨b.ready, here, rfl, rfl⟩
      · exact ⟨_, here, rfl, rfl⟩
    · exact ⟨b.ready, here, rfl, rfl⟩
  · exact ⟨b.ready, here, rfl, rfl⟩

end Backstage

/-- What a server can do with its end of a link. -/
inductive Serving where
  | post (event : LinkEvent)
  | stopPosting
  | stopListening

namespace Serving

def act : Serving → Link → Link × Bool
  | .post event => fun l => l.post event
  | .stopPosting => Link.stopPosting
  | .stopListening => Link.stopListening

def event? : Serving → Option LinkEvent
  | .post event => some event
  | .stopPosting | .stopListening => none

/-- The events that a link accepts from its server at a stroke. -/
def accepted (serving : Serving) (l : Link) : List LinkEvent :=
  if (serving.act l).2 then serving.event?.toList else []

theorem accepted_waits (serving : Serving) (l : Link) :
    (serving.act l).1.inbox = l.inbox ++ serving.accepted l ∧
      (l.posting = false → (serving.act l).1.posting = false ∧ serving.accepted l = []) := by
  cases serving with
  | post event =>
    cases reading : l.reading <;> cases posting : l.posting <;>
      simp [act, accepted, event?, Link.post, reading, posting]
  | stopPosting =>
    have none : Serving.stopPosting.accepted l = [] := ite_self _
    simp [act, none, Link.stopPosting]
  | stopListening =>
    have none : Serving.stopListening.accepted l = [] := ite_self _
    simp [act, none, Link.stopListening]

theorem filterMap_accepted (serving : Serving) (l : Link) (link other : Nat) :
    (if (serving.act l).2 then serving.event?.toList.map (link, ·) else []).filterMap
        (fun (own, event) => if own = other then some event else none) =
      if link = other then serving.accepted l else [] := by
  unfold accepted
  by_cases same : link = other <;> cases serving.event? <;> cases (serving.act l).2 <;> simp [same]

end Serving

/-- A connection with everything behind it, the journal of its calls, and what the servers have
put on the links, oldest first. -/
structure World (ω : Type) where
  back : Backstage
  connection : Connection ω
  journal : Journal ω
  put : List (Nat × LinkEvent)

/-- What can happen next: the owner gives an order, the oldest report is handled, a task has its
turn, or a server acts. -/
inductive WorldAct (ω : Type) where
  | order (available : Bool) (order : Order ω)
  | take (available : Bool)
  | turn (turn : Turn)
  | serve (link : Nat) (serving : Serving)

namespace World

variable {ω : Type}

def opening (retryDelay timeout : Nat) (script : Script) : World ω :=
  ⟨.opening retryDelay timeout script, .fresh, [], []⟩

/-- A call, with the tasks that it asks for. -/
def call (w : World ω) (available : Bool) (call : Call ω) : World ω :=
  let outside : Outside := ⟨available, w.back.listening⟩
  let episode := w.connection.episode outside call
  { w with
    back := w.back.performAll episode.effects
    connection := (w.connection.call outside call).1
    journal := w.journal ++ [episode] }

def act (w : World ω) : WorldAct ω → World ω
  | .order available order => w.call available (.order order)
  | .take available =>
    match w.back.mailbox with
    | [] => w
    | m :: rest => { w with back := { w.back with mailbox := rest } }.call available (.handle m)
  | .turn turn => { w with back := w.back.turn turn }
  | .serve link serving =>
    match w.back.server link serving.act with
    | none => w
    | some (back, done) =>
      { w with
        back
        put := w.put ++ if done then serving.event?.toList.map (link, ·) else [] }

def run (w : World ω) (acts : List (WorldAct ω)) : World ω := acts.foldl act w

theorem run_preserves {P : World ω → Prop} (step : ∀ w, P w → ∀ act, P (w.act act)) {w : World ω}
    (h : P w) (acts : List (WorldAct ω)) : P (w.run acts) := by
  induction acts generalizing w with
  | nil => exact h
  | cons act acts ih => exact ih (step w h act)

/-- An act is a call, ordered or for a report that is taken, or nothing to the connection. -/
theorem act_cases (w : World ω) (act : WorldAct ω) :
    (∃ available call rest, w.back.mailbox = call.message?.toList ++ rest ∧
      w.act act = { w with back := { w.back with mailbox := rest } }.call available call ∧
      ((∃ order, act = .order available order ∧ call = .order order) ∨
        ∃ m, act = .take available ∧ call = .handle m)) ∨
    ((∀ available order, act ≠ .order available order) ∧
      (w.act act).connection = w.connection ∧ (w.act act).journal = w.journal) := by
  cases act with
  | order available order =>
    exact .inl ⟨available, .order order, w.back.mailbox, rfl, rfl, .inl ⟨order, rfl, rfl⟩⟩
  | take available =>
    cases mailbox : w.back.mailbox with
    | nil =>
      refine .inr ⟨fun _ _ same => (by cases same), ?_⟩
      simp only [act, mailbox, and_self]
    | cons m rest =>
      refine .inl ⟨available, .handle m, rest, rfl, ?_, .inr ⟨m, rfl, rfl⟩⟩
      simp only [act, mailbox]
  | turn turn => exact .inr ⟨fun _ _ same => (by cases same), rfl, rfl⟩
  | serve link serving =>
    refine .inr ⟨fun _ _ same => (by cases same), ?_⟩
    simp only [act]
    split <;> exact ⟨rfl, rfl⟩

def puts (w : World ω) (link : Nat) : List LinkEvent :=
  w.put.filterMap fun (own, event) => if own = link then some event else none

/-- What a link has to bring: what was put on it and, once its server has given up, that it is
closed, but nothing after it is closed. -/
def line (w : World ω) (link : Nat) : List LinkEvent :=
  LinkEvent.upToClosed (w.puts link ++ if w.back.hungUp link then [.closed] else [])

/-- What the pump of an epoch has reported, handled or not. -/
def forwarded (w : World ω) (epoch : Nat) : List LinkEvent :=
  w.journal.brought epoch ++ w.back.queued epoch

end World

end TileClient.Rehearsal

import TileClient.Proofs.Rehearsal.Turns
import TileClient.Proofs.Session.Journal

/-! Links and the pumps that forward what they bring: what is on a link, and what a step of the
client leaves of it. -/
namespace TileClient

/-- The events of a link as far as they are of interest: up to the first that says it is closed. -/
def LinkEvent.upToClosed : List LinkEvent → List LinkEvent
  | [] => []
  | .closed :: _ => [.closed]
  | event :: rest => event :: upToClosed rest

namespace LinkEvent

theorem upToClosed_of_not_mem {events : List LinkEvent} (more : List LinkEvent)
    (h : .closed ∉ events) : upToClosed (events ++ more) = events ++ upToClosed more := by
  induction events with
  | nil => rfl
  | cons event events ih =>
    rw [List.mem_cons, not_or] at h
    cases event with
    | closed => exact absurd rfl h.1
    | message | error => simp only [List.cons_append, upToClosed, ih h.2]

theorem upToClosed_of_mem {events : List LinkEvent} (more : List LinkEvent)
    (h : .closed ∈ events) : upToClosed (events ++ more) = upToClosed events := by
  induction events with
  | nil => simp at h
  | cons event events ih =>
    cases event with
    | closed => rfl
    | message | error =>
      have later : .closed ∈ events := by simpa using h
      simp only [List.cons_append, upToClosed, ih later]

theorem upToClosed_grows (events more : List LinkEvent) :
    upToClosed events <+: upToClosed (events ++ more) := by
  by_cases h : .closed ∈ events
  · exact upToClosed_of_mem more h ▸ List.prefix_rfl
  · have alone := upToClosed_of_not_mem [] h
    rw [List.append_nil] at alone
    rw [upToClosed_of_not_mem more h, alone, upToClosed, List.append_nil]
    exact List.prefix_append _ _

theorem eq_of_prefix_upToClosed {taken events : List LinkEvent}
    (h : taken <+: upToClosed events) (closed : .closed ∈ taken) : taken = upToClosed events := by
  induction events generalizing taken with
  | nil => exact List.prefix_nil.mp h
  | cons event events ih =>
    cases taken with
    | nil => simp at closed
    | cons first taken =>
      cases event with
      | closed =>
        rw [upToClosed, List.cons_prefix_cons] at h
        rw [upToClosed, h.1, List.prefix_nil.mp h.2]
      | message | error =>
        simp only [upToClosed, List.cons_prefix_cons] at h ⊢
        obtain ⟨rfl, rest⟩ := h
        rw [ih rest (by simpa using closed)]

end LinkEvent

def Message.link? : Message → Option Nat
  | .opened _ link => some link
  | .discovery _ | .dialFailed _ _ | .transport _ _ => none

namespace Rehearsal

def Task.pump? : Task → Option (Nat × Nat)
  | .pump epoch link => some (epoch, link)
  | .request _ _ | .pause _ _ | .dial _ _ _ => none

theorem Task.eq_of_pump? {task : Task} {p : Nat × Nat} (h : task.pump? = some p) :
    task = .pump p.1 p.2 := by
  cases task with
  | pump epoch link =>
    obtain rfl := Option.some.inj h
    rfl
  | request | pause | dial => cases h

theorem Link.cases_of_next {l rest : Link} {event : LinkEvent} (h : l.next? = some (event, rest)) :
    rest.posting = l.posting ∧ (l.inbox = event :: rest.inbox ∨
      l.inbox = [] ∧ rest.inbox = [] ∧ l.posting = false ∧ event = .closed) := by
  unfold Link.next? at h
  split at h
  · rename_i first others waits
    simp only [Option.some.injEq, Prod.mk.injEq] at h
    obtain ⟨rfl, rfl⟩ := h
    exact ⟨rfl, .inl waits⟩
  · rename_i empty
    split at h
    · cases h
    · simp only [Option.some.injEq, Prod.mk.injEq] at h
      obtain ⟨rfl, rfl⟩ := h
      exact ⟨rfl, .inr ⟨empty, empty, by simpa using ‹¬ l.posting = true›, rfl⟩⟩

theorem Link.eq_of_next {l rest : Link} {event : LinkEvent} (h : l.next? = some (event, rest)) :
    rest = { l with inbox := rest.inbox } := by
  unfold Link.next? at h
  split at h
  · obtain ⟨-, rfl⟩ := Prod.mk.inj (Option.some.inj h)
    rfl
  · split at h
    · cases h
    · obtain ⟨-, rfl⟩ := Prod.mk.inj (Option.some.inj h)
      rfl

namespace Backstage

def pumps (b : Backstage) : List (Nat × Nat) := b.tasks.filterMap fun e => e.task.pump?

def queued (b : Backstage) (epoch : Nat) : List LinkEvent :=
  b.mailbox.filterMap (Message.event? epoch)

def inbox (b : Backstage) (link : Nat) : List LinkEvent := ((b.links[link]?).map (·.inbox)).getD []

/-- The server of a link has given up posting. -/
def hungUp (b : Backstage) (link : Nat) : Bool := ((b.links[link]?).map (!·.posting)).getD false

theorem read_updateLink {α : Type} (b : Backstage) (link other : Nat) (f : Link → Link)
    (read : Link → α) (otherwise : α) :
    (((b.updateLink link f).links[other]?).map read).getD otherwise =
      if link = other then ((b.links[other]?).map fun l => read (f l)).getD otherwise
      else ((b.links[other]?).map read).getD otherwise := by
  unfold updateLink
  by_cases same : link = other <;> simp [same, Function.comp_def]

theorem read_of_kept {α : Type} (b : Backstage) (link other : Nat) {f : Link → Link}
    (read : Link → α) (otherwise : α) (kept : ∀ l, read (f l) = read l) :
    (((b.updateLink link f).links[other]?).map read).getD otherwise =
      ((b.links[other]?).map read).getD otherwise := by
  rw [read_updateLink]
  simp only [kept, ite_self]

theorem read_of_same {α : Type} (b : Backstage) {link : Nat} {l next : Link}
    (here : b.links[link]? = some l) (other : Nat) (read : Link → α) (otherwise : α)
    (same : read next = read l) :
    (((b.updateLink link fun _ => next).links[other]?).map read).getD otherwise =
      ((b.links[other]?).map read).getD otherwise := by
  rw [read_updateLink]
  split
  · rename_i own
    rw [← own, here]
    exact same
  · rfl

theorem inbox_updateLink (b : Backstage) (link other : Nat) (f : Link → Link) :
    (b.updateLink link f).inbox other =
      if link = other then ((b.links[other]?).map fun l => (f l).inbox).getD [] else b.inbox other :=
  b.read_updateLink link other f (·.inbox) []

theorem hungUp_updateLink (b : Backstage) (link other : Nat) (f : Link → Link) :
    (b.updateLink link f).hungUp other =
      if link = other then ((b.links[other]?).map fun l => !(f l).posting).getD false
      else b.hungUp other :=
  b.read_updateLink link other f (!·.posting) false

theorem inbox_of_link (b : Backstage) {link : Nat} {l : Link} (here : b.links[link]? = some l) :
    b.inbox link = l.inbox := by
  rw [inbox, here]
  rfl

theorem hungUp_of_link (b : Backstage) {link : Nat} {l : Link} (here : b.links[link]? = some l) :
    b.hungUp link = !l.posting := by
  rw [hungUp, here]
  rfl

theorem inbox_of_next (b : Backstage) {link : Nat} {l rest : Link} (here : b.links[link]? = some l)
    (other : Nat) :
    (b.updateLink link fun _ => rest).inbox other =
      if link = other then rest.inbox else b.inbox other := by
  rw [inbox_updateLink]
  by_cases same : link = other
  · subst same
    simp [here]
  · rw [if_neg same, if_neg same]

theorem hungUp_of_next (b : Backstage) {link : Nat} {l rest : Link} {event : LinkEvent}
    (here : b.links[link]? = some l) (next : l.next? = some (event, rest)) (other : Nat) :
    (b.updateLink link fun _ => rest).hungUp other = b.hungUp other := by
  rw [hungUp_updateLink]
  by_cases same : link = other
  · subst same
    rw [b.hungUp_of_link here, here, if_pos rfl]
    exact congrArg (!·) (Link.cases_of_next next).1
  · rw [if_neg same]

theorem empty_of_next (b : Backstage) {link : Nat}
    (h : (b.links[link]?).bind Link.next? = none) :
    b.inbox link = [] ∧ b.hungUp link = false := by
  cases here : b.links[link]? with
  | none => simp [inbox, hungUp, here]
  | some l =>
    rw [b.inbox_of_link here, b.hungUp_of_link here]
    rw [here, Option.bind_some, Link.next?] at h
    split at h
    · cases h
    · rename_i empty
      refine ⟨empty, ?_⟩
      split at h
      · simpa using ‹l.posting = true›
      · cases h

theorem read_of_fresh {α : Type} {b c : Backstage} (links : c.links = b.links ++ [.fresh])
    (read : Link → α) (link : Nat) :
    ((c.links[link]?).map read).getD (read .fresh) =
      ((b.links[link]?).map read).getD (read .fresh) := by
  rw [links, List.getElem?_append]
  split
  · rfl
  · rename_i beyond
    rw [List.getElem?_eq_none (Nat.le_of_not_lt beyond), List.getElem?_singleton]
    split <;> rfl

theorem inbox_of_fresh {b c : Backstage} (links : c.links = b.links ++ [.fresh]) (link : Nat) :
    c.inbox link = b.inbox link :=
  read_of_fresh links (·.inbox) link

theorem hungUp_of_fresh {b c : Backstage} (links : c.links = b.links ++ [.fresh]) (link : Nat) :
    c.hungUp link = b.hungUp link :=
  read_of_fresh links (!·.posting) link

theorem pump_of_split {b c : Backstage} {before after : List Entry} {e : Entry} {p : Nat × Nat}
    (split : b.tasks = before ++ e :: after) (tasks : c.tasks = before ++ after)
    (was : p ∈ b.pumps) (gone : p ∉ c.pumps) : e.task.pump? = some p := by
  obtain ⟨own, member, read⟩ := List.mem_filterMap.mp was
  rw [split, List.mem_append, List.mem_cons] at member
  have left : own ∉ before ++ after := fun stays =>
    gone (List.mem_filterMap.mpr ⟨own, tasks ▸ stays, read⟩)
  rw [List.mem_append, not_or] at left
  rcases member with first | same | last
  · exact absurd first left.1
  · exact same ▸ read
  · exact absurd last left.2

/-- The same reports wait, and the same events on the same links. -/
structure SameLines (b c : Backstage) : Prop where
  mailbox : c.mailbox = b.mailbox
  links : c.links.length = b.links.length
  inbox : ∀ link, c.inbox link = b.inbox link
  hungUp : ∀ link, c.hungUp link = b.hungUp link

theorem SameLines.refl (b : Backstage) : b.SameLines b := ⟨rfl, rfl, fun _ => rfl, fun _ => rfl⟩

theorem SameLines.trans {a b c : Backstage} (h : a.SameLines b) (k : b.SameLines c) :
    a.SameLines c :=
  ⟨k.mailbox.trans h.mailbox, k.links.trans h.links, fun link => (k.inbox link).trans (h.inbox link),
    fun link => (k.hungUp link).trans (h.hungUp link)⟩

theorem sameLines_updateLink (b : Backstage) (link : Nat) {f : Link → Link}
    (inbox : ∀ l, (f l).inbox = l.inbox) (posting : ∀ l, (f l).posting = l.posting) :
    b.SameLines (b.updateLink link f) := by
  refine ⟨rfl, List.length_modify .., fun other => ?_, fun other => ?_⟩
  · rw [inbox_updateLink]
    simp [inbox, Backstage.inbox]
  · rw [hungUp_updateLink]
    simp [posting, Backstage.hungUp]

theorem sameLines_perform (b : Backstage) (effect : Effect) : b.SameLines (b.perform effect) := by
  cases effect with
  | request | pause | dial | pump | publish => exact ⟨rfl, rfl, fun _ => rfl, fun _ => rfl⟩
  | release link => exact b.sameLines_updateLink link (fun _ => rfl) fun _ => rfl
  | transmit link text => exact b.sameLines_updateLink link (fun _ => rfl) fun _ => rfl
  | cancel name =>
    obtain ⟨ready, cancelled⟩ := b.cancel_eq name
    rw [perform, cancelled]
    exact ⟨rfl, rfl, fun _ => rfl, fun _ => rfl⟩

theorem sameLines_performAll (b : Backstage) (effects : List Effect) :
    b.SameLines (b.performAll effects) := by
  induction effects generalizing b with
  | nil => exact .refl b
  | cons effect effects ih => exact (b.sameLines_perform effect).trans (ih (b.perform effect))

theorem pumps_perform (b : Backstage) (effect : Effect) :
    (b.perform effect).pumps = b.pumps ++ (Effect.pump? effect).toList := by
  cases effect with
  | request | pause | dial | pump => simp [perform, spawn, pumps, Task.pump?]
  | release | transmit | publish => simp [perform, pumps, updateLink]
  | cancel name =>
    obtain ⟨ready, cancelled⟩ := b.cancel_eq name
    rw [perform, cancelled]
    simp only [pumps, List.filterMap_map, Function.comp_def, Entry.givenUp_task, Effect.pump?,
      Option.toList_none, List.append_nil]

theorem pumps_performAll (b : Backstage) (effects : List Effect) :
    (b.performAll effects).pumps = b.pumps ++ Effect.collect Effect.pump? effects := by
  induction effects generalizing b with
  | nil => simp [performAll]
  | cons effect effects ih =>
    rw [Effect.collect_cons, ← List.append_assoc, ← pumps_perform]
    exact ih (b.perform effect)

private theorem cancelled_of_perform {b : Backstage} {effect : Effect} {e : Entry}
    (member : e ∈ (b.perform effect).tasks) (cancelled : e.cancelled = true) :
    (∃ old ∈ b.tasks, old.task = e.task ∧ old.cancelled = true) ∨
      effect = .cancel e.task.name := by
  cases effect with
  | request | pause | dial | pump =>
    rcases List.mem_append.mp member with old | new
    · exact .inl ⟨e, old, rfl, cancelled⟩
    · rw [List.mem_singleton.mp new] at cancelled
      cases cancelled
  | release | transmit | publish => exact .inl ⟨e, member, rfl, cancelled⟩
  | cancel name =>
    obtain ⟨ready, performed⟩ := b.cancel_eq name
    rw [perform, performed] at member
    obtain ⟨old, isOld, rfl⟩ := List.mem_map.mp member
    by_cases named : old.task.name = name
    · exact .inr (by rw [Entry.givenUp_task, named])
    · refine .inl ⟨old, isOld, (Entry.givenUp_task _ _).symm, ?_⟩
      simpa [Entry.givenUp, named] using cancelled

theorem cancelled_of_performAll {b : Backstage} {effects : List Effect} {e : Entry}
    (member : e ∈ (b.performAll effects).tasks) (cancelled : e.cancelled = true) :
    (∃ old ∈ b.tasks, old.task = e.task ∧ old.cancelled = true) ∨
      .cancel e.task.name ∈ effects := by
  induction effects generalizing b with
  | nil => exact .inl ⟨e, member, rfl, cancelled⟩
  | cons effect effects ih =>
    rcases ih member with ⟨old, isOld, same, was⟩ | named
    · rcases cancelled_of_perform isOld was with ⟨first, isFirst, task, before⟩ | named
      · exact .inl ⟨first, isFirst, task.trans same, before⟩
      · exact .inr (same ▸ named ▸ List.mem_cons_self)
    · exact .inr (List.mem_cons_of_mem _ named)

end Backstage

end Rehearsal

end TileClient

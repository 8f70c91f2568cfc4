import TileClient.Proofs.Session.Journal
import TileClient.Proofs.Session.Supersession

/-! Journals and the connections they lead to. What is kept by every call holds wherever a journal
leads, and a call that hands over a report of discovery is told apart by what the discovery makes
of it. -/
namespace TileClient

namespace Journal

variable {ω : Type}

/-- A journal of all calls of a connection that was fresh at first. -/
inductive Records : Journal ω → Connection ω → Prop where
  | fresh : Records [] .fresh
  | call {journal : Journal ω} {c : Connection ω} (h : Records journal c) (outside : Outside)
      (call : Call ω) : Records (journal ++ [c.episode outside call]) (c.call outside call).1

namespace Records

variable {journal : Journal ω} {c : Connection ω}

theorem coherent (h : journal.Records c) : c.session.Coherent := by
  induction h with
  | fresh => exact Session.fresh_coherent
  | call h outside call ih => exact (Connection.transition_of_call _ outside call ih.tornDown).coherent ih

theorem step (h : journal.Records c) (outside : Outside) (call : Call ω) :
    c.session.Transition call (c.call outside call).2.1 (c.call outside call).1.session :=
  c.transition_of_call outside call h.coherent.tornDown

theorem numbered (h : journal.Records c) : c.session.Numbered := by
  induction h with
  | fresh => exact Session.fresh_numbered
  | call h outside call ih => exact (h.step outside call).numbered ih

theorem concat (h : journal.Records c) (calls : List (Outside × Call ω)) :
    Records (journal ++ c.history calls) (c.after calls) := by
  induction calls generalizing journal c with
  | nil => simpa [Connection.history, Connection.after] using h
  | cons call calls ih =>
    have next := ih (h.call call.1 call.2)
    simpa [Connection.history, Connection.after] using next

theorem of_history (calls : List (Outside × Call ω)) :
    Records ((Connection.fresh : Connection ω).history calls) (Connection.fresh.after calls) :=
  Records.fresh.concat calls

theorem of_mem (h : journal.Records c) {episode : Episode ω} (member : episode ∈ journal) :
    ∃ (earlier : Journal ω) (d : Connection ω), earlier.Records d ∧
      episode = d.episode episode.outside episode.call := by
  induction h with
  | fresh => cases member
  | @call earlier d before outside call ih =>
    rcases List.mem_append.mp member with old | new
    · exact ih old
    · rw [List.mem_singleton.mp new]
      exact ⟨earlier, d, before, rfl⟩

end Records

/-- A call began something, and all calls after it went on with it. -/
def Lasting (begins goesOn : Episode ω → Prop) (journal : Journal ω) : Prop :=
  ∃ earlier first later, journal = earlier ++ first :: later ∧ begins first ∧
    ∀ episode ∈ later, goesOn episode

section
variable {begins goesOn : Episode ω → Prop} {journal : Journal ω} {episode : Episode ω}

theorem not_lasting_nil : ¬ Lasting begins goesOn [] := by
  rintro ⟨earlier, first, later, split, -⟩
  simp at split

theorem lasting_concat : Lasting begins goesOn (journal ++ [episode]) ↔
    begins episode ∨ Lasting begins goesOn journal ∧ goesOn episode := by
  constructor
  · rintro ⟨earlier, first, later, split, begun, all⟩
    rcases List.eq_nil_or_concat later with rfl | ⟨before, last, rfl⟩
    · obtain ⟨-, same⟩ := List.append_inj' split rfl
      obtain rfl := List.singleton_inj.mp same
      exact .inl begun
    · rw [List.concat_eq_append, ← List.cons_append, ← List.append_assoc] at split
      obtain ⟨rest, same⟩ := List.append_inj' split rfl
      obtain rfl := List.singleton_inj.mp same
      refine .inr ⟨⟨earlier, first, before, rest, begun, fun e member => ?_⟩, ?_⟩
      · exact all e (by simp [member])
      · exact all episode (by simp)
  · rintro (begun | ⟨⟨earlier, first, later, rfl, begun, all⟩, goes⟩)
    · exact ⟨journal, episode, [], rfl, begun, by simp⟩
    · refine ⟨earlier, first, later ++ [episode], by simp, begun, fun e member => ?_⟩
      rcases List.mem_append.mp member with old | new
      · exact all e old
      · rwa [List.mem_singleton.mp new]

end

end Journal

/-- The discovery takes a report as the reply that names a server. -/
def Discovery.finds (d : Discovery) (m : DiscoveryMessage) : Option Endpoint := (d.handle m).2.2

namespace Discovery

variable {d : Discovery} {m : DiscoveryMessage} {endpoint : Endpoint}

/-- A server is named by a reply of the current attempt. Then the search stops, and its pause, if
one is held, is given up. -/
theorem handle_of_finds (found : d.finds m = some endpoint) :
    d.isCurrent m.attempt = true ∧ d.handle m = (d.stopped, d.pauses.map .cancel, some endpoint) := by
  have h := d.handling m
  unfold finds at found
  generalize d.handle m = outcome at h found
  cases h with
  | assigned current usable =>
    obtain rfl := Option.some.inj found
    exact ⟨current, rfl⟩
  | ignored | refused | retried => cases found

theorem active_of_not_finds (none : d.finds m = none) : (d.handle m).1.active = d.active := by
  have h := d.handling m
  unfold finds at none
  generalize d.handle m = outcome at h none
  cases h with
  | assigned => cases none
  | ignored | refused => rfl
  | retried current => exact (active_of_isCurrent current).symm

end Discovery

namespace Connection

variable {ω : Type} {c : Connection ω} {m : DiscoveryMessage} {endpoint : Endpoint}

theorem call_of_not_finds (none : c.session.discovery.finds m = none) (outside : Outside) :
    (c.call outside (.handle (.discovery m))).1.session =
        { c.session with discovery := (c.session.discovery.handle m).1 } ∧
      (c.call outside (.handle (.discovery m))).2.1 = (c.session.discovery.handle m).2.1 := by
  simp only [Discovery.finds] at none
  simp [call, handle, settle, tell_session, Session.handle, Session.handleDiscovery, none]

theorem call_of_finds (coherent : c.session.Coherent)
    (found : c.session.discovery.finds m = some endpoint) {outside : Outside}
    (available : outside.available = true) :
    (c.call outside (.handle (.discovery m))).1.session = c.session.dialling ∧
      (c.call outside (.handle (.discovery m))).2.1 =
        (c.session.discovery.pauses ++ c.session.lines).map .cancel ++
          [.dial (c.session.epoch + 1) endpoint] := by
  obtain ⟨current, handled⟩ := Discovery.handle_of_finds found
  have looking := coherent.searching (Discovery.active_of_isCurrent current)
  simp [call, handle, settle, tell_session, Session.handle, Session.handleDiscovery, handled, looking,
    available, Session.connect_eq, Session.dialling, Session.holdings, Session.lines,
    Discovery.stopped, Discovery.holdings, Discovery.pauses]

/-- Where no connection can be opened, a server that is named is forgotten, and the search has
stopped all the same. -/
theorem call_of_finds_in_vain (coherent : c.session.Coherent)
    (found : c.session.discovery.finds m = some endpoint) {outside : Outside}
    (unavailable : outside.available = false) :
    (c.call outside (.handle (.discovery m))).1.session =
        { c.session with discovery := c.session.discovery.stopped } ∧
      (c.call outside (.handle (.discovery m))).2.1 =
        c.session.discovery.pauses.map .cancel := by
  obtain ⟨current, handled⟩ := Discovery.handle_of_finds found
  have looking := coherent.searching (Discovery.active_of_isCurrent current)
  simp [call, handle, settle, tell_session, Session.handle, Session.handleDiscovery, handled, looking,
    unavailable, Session.connect]

end Connection

end TileClient

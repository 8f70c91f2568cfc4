import TileClient.Proofs.Rehearsal.Adrift
import TileClient.Proofs.Rehearsal.Delivery

/-! What reaches a server. A link is written to by a move that is sent while its connection is in
use and its server still takes it, and by nothing else. -/
namespace TileClient

/-- The move that is sent while an epoch is in use and the server of its link still takes it. -/
def Episode.delivery? {ω : Type} (epoch link : Nat) (episode : Episode ω) : Option Wire.Move :=
  if episode.before.InUse epoch ∧ episode.outside.listening link = true then episode.call.sent?
  else none

@[simp] def Effect.transmit? (link : Nat) : Effect → Option String
  | .transmit own text => if own = link then some text else none
  | _ => none

namespace Effect

instance (link : Nat) : Passing (transmit? link) := ⟨fun _ => rfl, fun _ => rfl⟩
instance (link : Nat) : Deaf (transmit? link) := ⟨fun _ => rfl⟩

end Effect

namespace Connection

variable {ω : Type}

/-- Whether a move can be sent, and on which link. -/
def Reaches (c : Connection ω) (outside : Outside) (link : Nat) : Prop :=
  c.session.phase = .connected ∧ (∃ socket, c.session.socket = some socket ∧ socket.link = link) ∧
    outside.listening link = true

theorem Reaches.link_unique {c : Connection ω} {outside : Outside} {link other : Nat}
    (one : c.Reaches outside link) (two : c.Reaches outside other) : link = other := by
  obtain ⟨-, ⟨socket, held, rfl⟩, -⟩ := one
  obtain ⟨-, ⟨own, same, rfl⟩, -⟩ := two
  exact congrArg Socket.link (Option.some.inj (held.symm.trans same))

/-- A move is put on the link in use, or it is refused. The connection stays as it is. -/
theorem call_send (c : Connection ω) (outside : Outside) (move : Wire.Move) :
    (∃ link, c.Reaches outside link ∧
        c.session.send outside.listening move = .ok (.transmit link move.encode) ∧
        c.call outside (.order (.send move)) = (c, [.transmit link move.encode], [])) ∨
      (∀ link, ¬ c.Reaches outside link) ∧
        c.session.send outside.listening move = .error .notConnected ∧
        c.call outside (.order (.send move)) = (c, [], []) := by
  have refused (never : ∀ link, ¬ c.Reaches outside link)
      (sent : c.session.send outside.listening move = .error .notConnected) :
      (∀ link, ¬ c.Reaches outside link) ∧
        c.session.send outside.listening move = .error .notConnected ∧
        c.call outside (.order (.send move)) = (c, [], []) := by
    refine ⟨never, sent, ?_⟩
    rw [call, obey, sent]
    rfl
  by_cases used : c.session.phase = .connected
  · cases held : c.session.socket with
    | none => exact .inr (refused (by simp [Reaches, held]) (by simp [Session.send, used, held]))
    | some socket =>
      by_cases listens : outside.listening socket.link = true
      · have sent : c.session.send outside.listening move =
            .ok (.transmit socket.link move.encode) := by
          simp [Session.send, used, held, listens]
        refine .inl ⟨socket.link, ⟨used, ⟨socket, held, rfl⟩, listens⟩, sent, ?_⟩
        rw [call, obey, sent]
        rfl
      · refine .inr (refused ?_ (by simp [Session.send, used, held, listens]))
        rintro link ⟨-, ⟨own, same, rfl⟩, reached⟩
        obtain rfl := Option.some.inj (held.symm.trans same)
        exact listens reached
  · refine .inr (refused (fun link reaches => used reaches.1) ?_)
    cases phase : c.session.phase <;> simp_all [Session.send]

end Connection

/-- But for moves, no call puts anything on a link. -/
theorem Session.Transition.transmits {ω : Type} {s t : Session} {call : Call ω}
    {effects : List Effect} (step : s.Transition call effects t) (other : call.sent? = none)
    (link : Nat) : Effect.collect (Effect.transmit? link) effects = [] := by
  cases step with
  | sent => cases other
  | _ => simp

/-- A call puts its move on the link in use, if it has one and the server takes it, and nothing
else. -/
theorem Connection.transmits {ω : Type} (c : Connection ω) (coherent : c.session.Coherent)
    (outside : Outside) (call : Call ω) (link : Nat) [Decidable (c.Reaches outside link)] :
    Effect.collect (Effect.transmit? link) (c.call outside call).2.1 =
      if c.Reaches outside link then call.sent?.toList.map Wire.Move.encode else [] := by
  cases sent : call.sent? with
  | none =>
    rw [(c.transition_of_call outside call coherent.tornDown).transmits sent]
    exact (ite_self _).symm
  | some move =>
    obtain rfl : call = .order (.send move) := by
      cases call with
      | handle => cases sent
      | order order =>
        cases order with
        | send own =>
          obtain rfl := Option.some.inj sent
          rfl
        | start | connect | on | off | shutdown => cases sent
    rcases c.call_send outside move with ⟨own, reaches, -, called⟩ | ⟨never, -, called⟩
    · rw [called]
      by_cases same : own = link
      · subst same
        simp [reaches]
      · have away : ¬ c.Reaches outside link := fun other => same (reaches.link_unique other)
        simp [same, away]
    · rw [called, if_neg (never link)]
      rfl

theorem Session.Transition.socket_attached {ω : Type} {s t : Session} {call : Call ω}
    {effects : List Effect} (step : s.Transition call effects t) {socket : Socket}
    (held : t.socket = some socket) :
    s.socket = some socket ∨ (socket.pump, socket.link) ∈ Effect.collect Effect.pump? effects := by
  cases step with
  | kept | sent | superseded | told | started | refused | retried | stranded => exact .inl held
  | dialled | found | ended | failed | closed => cases held
  | opened =>
    obtain rfl := Option.some.inj held
    exact .inr List.mem_cons_self

namespace Rehearsal

namespace Backstage

def outbox (b : Backstage) (link : Nat) : List String := ((b.links[link]?).map (·.outbox)).getD []

theorem outbox_release (b : Backstage) (link other : Nat) :
    (b.updateLink link Link.release).outbox other = b.outbox other :=
  b.read_of_kept link other (·.outbox) [] fun _ => rfl

theorem Turned.outbox {b c : Backstage} (turned : b.Turned c) (link : Nat) :
    c.outbox link = b.outbox link := by
  cases turned with
  | idle | replied | rested | failed | dropped => rfl
  | opened => exact read_of_fresh rfl (·.outbox) link
  | released => exact outbox_release _ _ link
  | forwarded member task here next =>
    exact b.read_of_same here link (·.outbox) [] (congrArg (·.outbox) (Link.eq_of_next next))
  | @closed before after e epoch own l rest split task here next =>
    refine (outbox_release _ _ link).trans ?_
    exact read_of_same { b with tasks := before ++ after } here link (·.outbox) []
      (congrArg (·.outbox) (Link.eq_of_next next))

theorem outbox_perform (b : Backstage) (effect : Effect) {link : Nat} (there : link < b.links.length) :
    (b.perform effect).outbox link = b.outbox link ++ (Effect.transmit? link effect).toList := by
  cases effect with
  | request | pause | dial | pump | publish => simp [perform, spawn, outbox]
  | release own =>
    rw [perform, outbox_release]
    simp
  | transmit own text =>
    rw [perform, outbox, read_updateLink, outbox]
    by_cases same : own = link
    · subst same
      simp [there]
    · simp [same]
  | cancel name =>
    obtain ⟨ready, cancelled⟩ := b.cancel_eq name
    rw [perform, cancelled]
    simp [outbox]

theorem outbox_performAll (b : Backstage) (effects : List Effect) {link : Nat}
    (there : link < b.links.length) : (b.performAll effects).outbox link =
      b.outbox link ++ Effect.collect (Effect.transmit? link) effects := by
  induction effects generalizing b with
  | nil => simp [performAll]
  | cons effect effects ih =>
    rw [Effect.collect_cons, ← List.append_assoc, ← b.outbox_perform effect there]
    exact ih (b.perform effect) ((b.sameLines_perform effect).links ▸ there)

theorem outbox_beyond {b : Backstage} {link : Nat} (beyond : b.links.length ≤ link) :
    b.outbox link = [] := by
  rw [outbox, List.getElem?_eq_none beyond]
  rfl

end Backstage

end Rehearsal

/-- The moves that are sent while an epoch is in use and the server of its link still takes them. -/
def Journal.delivered {ω : Type} (journal : Journal ω) (epoch link : Nat) : List Wire.Move :=
  journal.filterMap (Episode.delivery? epoch link)

theorem Journal.delivered_concat {ω : Type} (journal : Journal ω) (episode : Episode ω)
    (epoch link : Nat) : Journal.delivered (journal ++ [episode]) epoch link =
      journal.delivered epoch link ++ (episode.delivery? epoch link).toList := by
  simp only [delivered, List.filterMap_append, List.append_cancel_left_eq]
  cases h : episode.delivery? epoch link <;> simp [h]

namespace Rehearsal

/-- The move that is sent in an act, whether or not it can be. -/
def WorldAct.sent? {ω : Type} : WorldAct ω → Option Wire.Move
  | .order _ own => (Call.order own).sent?
  | .take _ | .turn _ | .serve _ _ => none

namespace World

variable {ω : Type} {w : World ω}

namespace Called

variable {v : World ω} {episode : Episode ω}

theorem new_apart (c : Called v w episode) (h : w.Sound) {p : Nat × Nat}
    (new : p ∈ Effect.collect Effect.pump? episode.effects) :
    p.1 ∉ v.journal.attached.map Prod.fst ∧ p.2 ∉ v.journal.attached.map Prod.snd := by
  have epochs := h.epochs
  have links := (List.nodup_append.mp h.links).1
  rw [c.attached, List.map_append, List.nodup_append] at epochs links
  exact ⟨fun old => epochs.2.2 p.1 old p.1 (List.mem_map_of_mem new) rfl,
    fun old => links.2.2 p.2 old p.2 (List.mem_map_of_mem new) rfl⟩

theorem moveless (c : Called v w episode) (h : v.Sound) {p : Nat × Nat}
    (new : p ∈ Effect.collect Effect.pump? episode.effects) : episode.call.sent? = none := by
  rcases episode.attaches c.step (c.before ▸ h.coherent) with ⟨none, -⟩ | ⟨link, opened, -⟩
  · rw [none] at new
    cases new
  · rw [opened]
    rfl

end Called

/-- What holds of a world and of what its client has put on the links at any time. -/
structure Posted (w : World ω) : Prop where
  sound : w.Sound
  records : w.journal.Records w.connection
  held : ∀ socket, w.session.socket = some socket →
    (socket.pump, socket.link) ∈ w.journal.attached
  used : ∀ episode ∈ w.journal, ∀ epoch, episode.before.InUse epoch →
    epoch ∈ w.journal.attached.map Prod.fst
  sent : ∀ p ∈ w.journal.attached,
    w.back.outbox p.2 = (w.journal.delivered p.1 p.2).map Wire.Move.encode
  untouched : ∀ link, link ∉ w.journal.attached.map Prod.snd → w.back.outbox link = []

theorem outbox_call (w : World ω) (available : Bool) (call : Call ω) (rest : List Message)
    {link : Nat} (there : link < w.back.links.length) :
    ({ w with back := { w.back with mailbox := rest } }.call available call).back.outbox link =
      w.back.outbox link ++ Effect.collect (Effect.transmit? link)
        (w.connection.episode ⟨available, w.back.listening⟩ call).effects :=
  Backstage.outbox_performAll { w.back with mailbox := rest } _ there

namespace Posted

theorem socket_of_inUse (h : w.Posted) {epoch : Nat} (used : w.session.InUse epoch) :
    ∃ link, w.session.socket = some ⟨link, epoch⟩ ∧ (epoch, link) ∈ w.journal.attached := by
  obtain ⟨some, -⟩ := h.records.coherent.connected used.1
  obtain ⟨⟨link, pump⟩, held⟩ := Option.isSome_iff_exists.mp some
  obtain rfl : pump = epoch := (h.records.numbered.socket _ held).trans used.2
  exact ⟨link, held, h.held _ held⟩

/-- A move can be sent on the link of the epoch in use, as long as the server takes it. -/
theorem reaches_iff (h : w.Posted) {outside : Outside} {p : Nat × Nat}
    (attached : p ∈ w.journal.attached) : w.connection.Reaches outside p.2 ↔
      w.session.InUse p.1 ∧ outside.listening p.2 = true := by
  constructor
  · rintro ⟨used, ⟨⟨link, pump⟩, held, rfl⟩, listens⟩
    have same := h.sound.eq_of_link attached (h.held _ held) rfl
    have now := h.records.numbered.socket _ held
    exact ⟨⟨used, by rw [same, ← now]⟩, listens⟩
  · rintro ⟨used, listens⟩
    obtain ⟨link, held, own⟩ := h.socket_of_inUse used
    have same := h.sound.eq_of_epoch own attached rfl
    exact ⟨used.1, ⟨_, held, congrArg Prod.snd same⟩, listens⟩

theorem attached_of_reaches (h : w.Posted) {outside : Outside} {link : Nat}
    (reaches : w.connection.Reaches outside link) : link ∈ w.journal.attached.map Prod.snd := by
  obtain ⟨-, ⟨socket, held, rfl⟩, -⟩ := reaches
  exact List.mem_map_of_mem (h.held socket held)

/-- Nothing is delivered under an epoch that was never attached. -/
theorem delivered_of_unattached (h : w.Posted) {epoch : Nat}
    (free : epoch ∉ w.journal.attached.map Prod.fst) (link : Nat) :
    w.journal.delivered epoch link = [] :=
  List.filterMap_eq_nil_iff.mpr fun episode member =>
    if_neg fun reached => free (h.used episode member epoch reached.1)

theorem transmits_delivery (h : w.Posted) (outside : Outside) (call : Call ω) {p : Nat × Nat}
    (attached : p ∈ w.journal.attached) :
    Effect.collect (Effect.transmit? p.2) (w.connection.episode outside call).effects =
      ((w.connection.episode outside call).delivery? p.1 p.2).toList.map Wire.Move.encode := by
  classical
  have delivery : (w.connection.episode outside call).delivery? p.1 p.2 =
      if w.connection.Reaches outside p.2 then call.sent? else none :=
    if_congr (h.reaches_iff attached).symm rfl rfl
  rw [delivery]
  refine (w.connection.transmits h.records.coherent outside call p.2).trans ?_
  split <;> rfl

section
variable {v : World ω} {outside : Outside} {call : Call ω}

theorem sent_of_called (h : w.Posted) (c : Called w v (w.connection.episode outside call))
    (outbox : ∀ link < w.back.links.length, v.back.outbox link = w.back.outbox link ++
      Effect.collect (Effect.transmit? link) (w.connection.episode outside call).effects)
    {p : Nat × Nat} (member : p ∈ v.journal.attached) :
    v.back.outbox p.2 = (v.journal.delivered p.1 p.2).map Wire.Move.encode := by
  have sound : v.Sound := c.sound h.sound
  have there : p.2 < w.back.links.length :=
    c.links ▸ sound.made p.2 (List.mem_append_left _ (List.mem_map_of_mem member))
  rw [outbox p.2 there, c.journal, Journal.delivered_concat, List.map_append]
  rcases List.mem_append.mp (c.attached ▸ member) with old | new
  · rw [h.sent p old, h.transmits_delivery outside call old]
  · -- A connection that is attached only now has carried nothing, and carries nothing now.
    obtain ⟨newEpoch, newLink⟩ := c.new_apart sound new
    have still := c.moveless h.sound new
    rw [h.untouched p.2 newLink, h.delivered_of_unattached newEpoch, c.step.transmits still]
    simp [Episode.delivery?, still]

theorem untouched_of_called (h : w.Posted) (c : Called w v (w.connection.episode outside call))
    (outbox : ∀ link < w.back.links.length, v.back.outbox link = w.back.outbox link ++
      Effect.collect (Effect.transmit? link) (w.connection.episode outside call).effects)
    {link : Nat} (free : link ∉ v.journal.attached.map Prod.snd) : v.back.outbox link = [] := by
  classical
  rw [c.attached, List.map_append, List.mem_append, not_or] at free
  by_cases there : link < w.back.links.length
  · have away : ¬ w.connection.Reaches outside link := fun reaches =>
      free.1 (h.attached_of_reaches reaches)
    have nothing := w.connection.transmits h.records.coherent outside call link
    rw [if_neg away] at nothing
    rw [outbox link there, h.untouched link free.1]
    exact nothing
  · exact Backstage.outbox_beyond (c.links ▸ Nat.le_of_not_lt there)

end

theorem call (h : w.Posted) (available : Bool) (call : Call ω) {rest : List Message}
    (mailbox : w.back.mailbox = call.message?.toList ++ rest) :
    Posted ({ w with back := { w.back with mailbox := rest } }.call available call) := by
  let outside : Outside := ⟨available, w.back.listening⟩
  let v := { w with back := { w.back with mailbox := rest } }.call available call
  have c : Called w v (w.connection.episode outside call) :=
    w.called h.sound available call mailbox
  have outbox (link : Nat) (there : link < w.back.links.length) :=
    w.outbox_call available call rest there
  refine ⟨c.sound h.sound, h.records.call outside call, fun socket held => ?_,
    fun e member epoch used => ?_, fun p => h.sent_of_called c outbox,
    fun link => h.untouched_of_called c outbox⟩
  · change _ ∈ v.journal.attached
    rw [c.attached, List.mem_append]
    exact (c.step.socket_attached held).imp_left (h.held socket)
  · change epoch ∈ v.journal.attached.map Prod.fst
    rw [c.attached, List.map_append]
    refine List.mem_append_left _ ?_
    rcases List.mem_append.mp (c.journal ▸ member) with old | new
    · exact h.used e old epoch used
    · rw [List.mem_singleton.mp new] at used
      obtain ⟨link, -, own⟩ := h.socket_of_inUse used
      exact List.mem_map_of_mem own

theorem of_back (h : w.Posted) {v : World ω} (sound : v.Sound)
    (connection : v.connection = w.connection) (journal : v.journal = w.journal)
    (outbox : ∀ link, v.back.outbox link = w.back.outbox link) : v.Posted := by
  refine ⟨sound, ?_, ?_, ?_, fun p member => ?_, fun link free => ?_⟩
  · rw [connection, journal]
    exact h.records
  · rw [World.session, connection, journal]
    exact h.held
  · exact journal ▸ h.used
  · rw [outbox, journal]
    exact h.sent p (journal ▸ member)
  · rw [outbox]
    exact h.untouched link (journal ▸ free)

end Posted

end World

end Rehearsal

end TileClient

import TileClient.Proofs.Play.Run
import TileClient.Proofs.Rehearsal.Dialling
import TileClient.Proofs.Session.Handoff

/-! Who is dialled, and when: a client with a server of its own dials it first and without asking,
and all dials after it are those that the directory's replies call for. With what holds of sessions
and of their tasks this is the whole way from the directory to the dialer. -/
namespace TileClient.Play
open Effect Rehearsal

variable {p : Play}

theorem server_take (p : Play) (wake : Wake) : (p.take wake).1.server = p.server := by
  cases one : (wake.input.call? : Option (Call Reaction)) with
  | none => rw [p.take_of_restart one]
  | some call =>
    rw [p.take_of_call one]
    rfl

theorem server_begin {available : Bool} {next : Play} {effects : List Effect}
    (began : p.begin available = .ok (next, effects)) : next.server = p.server := by
  have followed := follow_of_begin ⟨available, fun _ => true⟩ began
  exact (congrArg (·.1.server) followed).symm

theorem keeps_server (server : Option Endpoint) : Keeps fun p => p.server = server where
  begins := fun began h => (server_begin began).trans h
  turns := fun {p} wake h => (p.server_take wake).trans h
  excuses := fun {p} fault h => by
    unfold excused
    split <;> exact h

theorem begin_of_server {endpoint : Endpoint} (server : p.server = some endpoint) :
    ∃ next, p.begin true = .ok (next,
      p.session.holdings.map .cancel ++ [.dial (p.session.epoch + 1) endpoint]) := by
  simp [begin, server, Connection.connect, Session.connect_eq, Except.map, follow, Connection.settle]

/-- The loop dials only what a reply of the directory calls for. -/
theorem reply_of_dial (coherent : p.session.Coherent) {wakes : List Wake} {scene : Scene}
    (member : scene ∈ p.loop wakes) {dial : Nat × Endpoint}
    (new : dial ∈ collect dialling? scene.effects) :
    ∃ wake reply, scene.wake? = some wake ∧ wake.input = .message (.discovery reply) ∧
      scene.before.session.discovery.accepts? reply = some dial.2 := by
  obtain ⟨q, wake, rfl, kept⟩ := keeps_coherent.turn_of_mem coherent member
  have turning := turning_of_scene kept.tornDown wake
  refine ⟨wake, ?_⟩
  obtain ⟨outside, input⟩ := wake
  generalize (q.scene ⟨outside, input⟩).effects = effects at new turning
  generalize (q.scene ⟨outside, input⟩).after.session = after at turning
  cases turning with
  | heard step =>
    obtain ⟨reply, rfl, accepted⟩ := step.server_of_report new
    exact ⟨reply, rfl, rfl, accepted⟩
  | moved step =>
    rw [step.dialling_eq_nil nofun nofun] at new
    cases new
  | refused => cases new
  | left => simp at new

/-- Where connections can be opened, servers are handed over to be dialled exactly once. Whatever is
called and reported, the dials that start are those of the orders to connect and of the replies that
are accepted, one for each, in their order, and the epoch counts them and the shutdowns. Whatever
turns the tasks take, the dials that begin are some of those that started, in their order; one that
did not begin still waits for its turn or has been given up, all that wait begin when all settles,
and of several orders to connect at once only the last is dialled. While discovery is off, all its
tasks are cancelled. A client with a server of its own dials it first and asks for no other before;
after that each dial is that of a reply which its discovery accepts. -/
theorem hands_over_exactly_once {ω : Type} :
    (∀ calls : List ((Nat → Bool) × Call ω),
      let made := calls.map fun (listening, call) => ((⟨true, listening⟩ : Outside), call)
      Journal.HandsOver ((Connection.fresh : Connection ω).history made)
        (Connection.fresh.after made).session) ∧
    (∀ (retryDelay timeout : Nat) (script : Script) (acts : List (WatchAct ω)),
      let w := (Watch.opening retryDelay timeout script).run acts
      w.world.journal.HandsOver w.session ∧
      w.begun.Sublist w.world.journal.dialled ∧
      w.back.dialled = (w.begun.map Prod.snd).reverse ∧
      (∀ dial ∈ w.world.journal.dialled, dial ∈ w.begun ∨ dial ∈ w.back.waiting ∨
        ∃ episode ∈ w.world.journal, .cancel (.dial dial.1) ∈ episode.effects) ∧
      (w.session.discovery.active = false →
        ∀ e ∈ w.back.tasks, e.task.seeks = true → e.cancelled = true) ∧
      (w.settle.back = w.back.settle ∧ w.settle.back.waiting = [] ∧
        w.settle.begun = w.begun ++ w.back.waiting) ∧
      ∀ (endpoints : List Endpoint) (last : Endpoint),
        (((w.run (endpoints.map fun endpoint => .order (.connect endpoint))).act
          (.order (.connect last))).settle).begun =
            w.begun ++ [(w.session.epoch + endpoints.length + 1, last)]) ∧
    ∀ (gridSize : Nat) (endpoint : Endpoint) (earlier : List Engagement) (wakes : List Wake),
      let p := (fresh gridSize (some endpoint)).afterRuns earlier
      ∃ first rest, p.run ⟨true, wakes⟩ = first :: rest ∧
        collect dialling? first.effects = [(p.session.epoch + 1, endpoint)] ∧
        collect request? first.effects = [] ∧
        ∀ scene ∈ rest, ∀ dial ∈ collect dialling? scene.effects, ∃ wake reply,
          scene.wake? = some wake ∧ wake.input = .message (.discovery reply) ∧
            scene.before.session.discovery.accepts? reply = some dial.2 := by
  refine ⟨fun calls => ?_, fun retryDelay timeout script acts => ?_,
    fun gridSize endpoint earlier wakes => ?_⟩
  · intro made
    refine (Journal.Records.of_history made).handsOver (Journal.open_history _ fun call member => ?_)
    obtain ⟨-, -, rfl⟩ := List.mem_map.mp member
    rfl
  · intro w
    have h : w.Kept := Watch.kept_run (Watch.kept_opening retryDelay timeout script) acts
    obtain ⟨-, none, begun⟩ := h.steady.settle h.woken
    refine ⟨h.steady.handsOver, (List.sublist_append_left _ _).trans h.steady.among,
      h.steady.logged, fun dial started => ?_, fun idle e member seeks =>
        h.steady.seeks.cancelled_of_idle idle member seeks, ⟨w.back_settle, none, begun⟩,
      h.settle_connects⟩
    refine (h.steady.fate dial started).elim (fun among => ?_) fun cancelled => .inr (.inr cancelled)
    exact (List.mem_append.mp among).imp_right .inl
  · intro p
    have coherent : p.session.Coherent := coherent_afterRuns gridSize (some endpoint) earlier
    have server : p.server = some endpoint :=
      (keeps_server (some endpoint)).afterRuns rfl earlier
    obtain ⟨next, began⟩ := begin_of_server server
    have started := (beginning_of_begin began).coherent coherent
    refine ⟨_, next.loop wakes, by rw [run, began], by simp, by simp, ?_⟩
    exact fun scene member dial new => reply_of_dial started member new

end TileClient.Play

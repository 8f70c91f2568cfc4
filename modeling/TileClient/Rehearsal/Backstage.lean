import TileClient.Rehearsal.Task

/-! Backstage: the tasks, the links, the script and the clock behind a client. -/
namespace TileClient.Rehearsal

/-- Everything outside the client. Tasks that are to run stand in `ready`, in the order in which
they were woken; reports wait in `mailbox`. The logs `fetches` (times) and `dialled` have the
newest entry first. -/
structure Backstage where
  now : Nat
  retryDelay : Nat
  timeout : Nat
  script : Script
  tasks : List Entry
  nextId : Nat
  ready : List Nat
  mailbox : List Message
  links : List Link
  fetches : List Nat
  dialled : List Endpoint

namespace Backstage

def opening (retryDelay timeout : Nat) (script : Script) : Backstage where
  now := 0
  retryDelay
  timeout
  script
  tasks := []
  nextId := 0
  ready := []
  mailbox := []
  links := []
  fetches := []
  dialled := []

/-- Has a task run soon. A task that is to run anyway keeps its turn. -/
def wake (b : Backstage) (id : Nat) : Backstage :=
  if b.ready.contains id then b else { b with ready := b.ready ++ [id] }

def post (b : Backstage) (m : Message) : Backstage := { b with mailbox := b.mailbox ++ [m] }

def updateLink (b : Backstage) (link : Nat) (f : Link → Link) : Backstage :=
  { b with links := b.links.modify link f }

def newLink (b : Backstage) : Backstage × Nat :=
  ({ b with links := b.links ++ [.fresh] }, b.links.length)

def spawn (b : Backstage) (task : Task) : Backstage :=
  { b with
    tasks := b.tasks ++ [⟨b.nextId, task, false⟩]
    nextId := b.nextId + 1
    ready := b.ready ++ [b.nextId] }

/-- Cancels the task of a name. It is still there until it is run again. -/
def cancel (b : Backstage) (name : TaskName) : Backstage :=
  let wanted := fun (e : Entry) => e.task.name == name && !e.cancelled
  let woken := (b.tasks.filter wanted).foldl (fun b e => b.wake e.id) b
  { woken with
    tasks := b.tasks.map fun e => if wanted e then { e with cancelled := true } else e }

/-- Does what a step of the client asks for. Events are not told here. -/
def perform (b : Backstage) : Effect → Backstage
  | .request attempt => b.spawn (.request attempt .unbegun)
  | .pause attempt => b.spawn (.pause attempt .unbegun)
  | .dial epoch endpoint => b.spawn (.dial epoch endpoint .unbegun)
  | .pump epoch link => b.spawn (.pump epoch link)
  | .cancel name => b.cancel name
  | .release link => b.updateLink link Link.release
  | .transmit link text => b.updateLink link fun l => { l with outbox := l.outbox ++ [text] }
  | .publish _ => b

def performAll (b : Backstage) (effects : List Effect) : Backstage := effects.foldl perform b

/-- Begins a task that has not begun: a request asks the directory, a dial calls the server. -/
def begin (b : Backstage) : Task → Backstage × Task
  | .request attempt .unbegun =>
    let (reply, script) := b.script.nextReply
    let (delay, outcome) := withinTimeout b.timeout reply
    ({ b with script, fetches := b.now :: b.fetches },
      .request attempt (.waiting (some (b.now + delay)) outcome))
  | .pause attempt .unbegun => (b, .pause attempt (.waiting (some (b.now + b.retryDelay)) ()))
  | .dial epoch endpoint .unbegun =>
    let (dial, script) := b.script.nextDial
    ({ b with script, dialled := endpoint :: b.dialled },
      .dial epoch endpoint (.waiting (dial.delay.map (b.now + ·)) dial.outcome))
  | task => (b, task)

/-- Posts the report of a task whose outcome has come. A dial that succeeds makes its link now. -/
def report (b : Backstage) : Task → Backstage
  | .request attempt (.waiting _ outcome) => b.post (.discovery (.response attempt outcome))
  | .pause attempt (.waiting _ _) => b.post (.discovery (.retryDue attempt))
  | .dial epoch _ (.waiting _ (.ok _)) =>
    let (b, link) := b.newLink
    b.post (.opened epoch link)
  | .dial epoch _ (.waiting _ (.error fault)) => b.post (.dialFailed epoch fault)
  | _ => b

def removeTask (b : Backstage) (id : Nat) : Backstage :=
  { b with tasks := b.tasks.filter (·.id != id) }

def replaceTask (b : Backstage) (id : Nat) (task : Task) : Backstage :=
  { b with tasks := b.tasks.map fun e => if e.id = id then { e with task } else e }

/-- How forwarding came to its end: with an event that says the link is closed, for want of
events, or before either. -/
inductive Forwarding where
  | closed | caughtUp | interrupted
  deriving DecidableEq, Repr

/-- Forwards events of a link, at most so many, up to and with the first that says it is closed. -/
def forward (epoch link : Nat) : (limit : Nat) → Backstage → Backstage × Forwarding
  | 0, b => (b, .interrupted)
  | limit + 1, b =>
    match b.links[link]?.bind Link.next? with
    | none => (b, .caughtUp)
    | some (event, rest) =>
      let b := (b.updateLink link fun _ => rest).post (.transport epoch event)
      if event = .closed then (b, .closed) else forward epoch link limit b

/-- How many events a pump forwards before the other tasks have their turn. -/
def share : Nat := 128

/-- Runs a pump: it forwards what there is, takes another turn if that is more than its share,
and ends when the link is closed. -/
def runPump (b : Backstage) (id epoch link : Nat) : Backstage :=
  match forward epoch link share b with
  | (b, .closed) => (b.removeTask id).updateLink link Link.release
  | (b, .caughtUp) => b
  | (b, .interrupted) => b.wake id

/-- Ends a cancelled task. A pump lets go of its link. -/
def discard (b : Backstage) (e : Entry) : Backstage :=
  match e.task with
  | .pump _ link => (b.removeTask e.id).updateLink link Link.release
  | _ => b.removeTask e.id

/-- Runs a task until it waits or ends. -/
def run (b : Backstage) (id : Nat) : Backstage :=
  match b.tasks.find? (·.id = id) with
  | none => b
  | some e =>
    if e.cancelled then b.discard e
    else match e.task with
      | .pump epoch link => b.runPump id epoch link
      | task =>
        let (b, task) := b.begin task
        match task.due? with
        | none => b.replaceTask id task
        | some due =>
          if due ≤ b.now then (b.removeTask id).report task else b.replaceTask id task

/-- Runs the tasks that are to run, in the order in which they were woken, and then those that
take another turn, at most so many rounds. -/
def settleWithin : (rounds : Nat) → Backstage → Backstage
  | 0, b => b
  | rounds + 1, b =>
    match b.ready with
    | [] => b
    | ready => settleWithin rounds (ready.foldl run { b with ready := [] })

/-- Runs tasks until all of them wait. No task wakes another, and a pump that takes another turn
has forwarded an event, so that there is no more than a round for each event and two. -/
def settle (b : Backstage) : Backstage :=
  b.settleWithin ((b.links.flatMap (·.inbox)).length + 2)

/-- The pump of a link has something to do. -/
def wakePump (b : Backstage) (link : Nat) : Backstage :=
  match b.tasks.find? fun e => match e.task with
    | .pump _ l => l = link
    | _ => false with
  | some e => b.wake e.id
  | none => b

/-- Lets the server of a link act; `none` if there is no such link. The link's pump takes notice
of what is posted and of the end of posting, and of nothing else. -/
def server (b : Backstage) (link : Nat) (act : Link → Link × Bool) : Option (Backstage × Bool) :=
  b.links[link]?.map fun l =>
    let (changed, done) := act l
    let b := b.updateLink link fun _ => changed
    (if changed.isNews l then b.wakePump link else b, done)

/-- Whether the server of a link still takes what the client sends. -/
def listening (b : Backstage) (link : Nat) : Bool := (b.links[link]?.map (·.listening)).getD false

def nextDue? (b : Backstage) : Option Nat :=
  (b.tasks.filterMap (·.task.due?)).min?

/-- Moves the clock and wakes every task whose time has come, in the order in which they began
to wait. -/
def reach (b : Backstage) (time : Nat) : Backstage :=
  let b := { b with now := time }
  (b.tasks.filter fun e => e.task.due?.any (· ≤ time)).foldl
    (fun b e => b.wake e.id) b

end Backstage

end TileClient.Rehearsal

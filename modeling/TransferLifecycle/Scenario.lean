import TransferLifecycle.Batch
import TransferLifecycle.Snapshot
import TransferLifecycle.Store.Fault

set_option autoImplicit false

/- A scenario plays steps on one engine and one queue, with planned faults of the store and a clock
that stands still within a step. Each step shows its answer, what it told the listeners, its calls
of the store and how many commands wait in the queue afterwards. -/
namespace TransferLifecycle.Scenario

inductive Step where
  | wait
  | plan (fault : Fault)
  | apply (command : Command)
  | applyAll (commands : List Command)
  | enqueue (commands : List Command)
  | processNext
  | drain
  | replay (record : Record)
  | batch (records : List Record)
  | sequence (records : List Record)
  | processes
  | snapshot
  | load (id : ProcessId)
  | save (process : TransferProcess)
  | create (process : TransferProcess)
  | all
  | size

inductive Answer where
  | nothing
  | attempt (result : Attempt)
  | attempts (results : List Attempt)
  | status (result : Except Interruption (Option Status))
  | tally (result : Except Interruption Tally)
  | processes (result : Except StoreError (List TransferProcess))
  | snapshot (result : Except StoreError (List UInt8))
  | loaded (result : Except StoreError (Option TransferProcess))
  | written (result : Except StoreError Unit)
  | size (count : Nat)

structure Play where
  session : Session
  queue : Queue
  faults : List Fault
  time : Instant

/-- What a step showed, the oldest first. -/
structure Shown where
  answer : Answer
  deliveries : List Delivery
  calls : List Call
  pending : Nat

namespace Play

def start (processes : List TransferProcess) : Play :=
  ⟨.start (.reliable (.ofList processes)) (.fixed (.ofSeconds 0)), [], [], .ofSeconds 0⟩

/-- Empties the logs, arms the faults and sets the clock. -/
def prepare (p : Play) (time : Option Instant) : Play :=
  let now := time.getD p.time
  { p with
    time := now
    session := { p.session with
      clock := .fixed now
      deliveries := []
      store := { p.session.store with calls := [], fate := Fault.fate p.faults } } }

def applyAll (d : Dispatcher) (s : Session) : List Command → List Attempt × Session
  | [] => ([], s)
  | c :: rest =>
    let (result, after) := d.apply s c
    let (results, last) := applyAll d after rest
    (result :: results, last)

def withStore (p : Play) {α : Type} (answer : α → Answer) (result : α × Store) : Answer × Play :=
  (answer result.1, { p with session := { p.session with store := result.2 } })

def act (e : Engine) (p : Play) : Step → Answer × Play
  | .wait => (.nothing, p)
  | .plan fault => (.nothing, { p with faults := p.faults ++ [fault] })
  | .apply c =>
    let (result, session) := e.dispatcher.apply p.session c
    (.attempt result, { p with session })
  | .applyAll commands =>
    let (results, session) := applyAll e.dispatcher p.session commands
    (.attempts results, { p with session })
  | .enqueue commands => (.nothing, { p with queue := commands.foldl Queue.push p.queue })
  | .processNext =>
    let (result, queue, session) := p.queue.processNext e.policy e.dispatcher.apply p.session
    (.status result, { p with queue, session })
  | .drain =>
    let (result, queue, session) := p.queue.drain e.policy e.dispatcher.apply p.session
    (.tally result, { p with queue, session })
  | .replay record =>
    let (result, session) := e.apply p.session record
    (.tally result, { p with session })
  | .batch records =>
    let (result, session) := e.runBatch p.session records
    (.tally result, { p with session })
  | .sequence records =>
    let (result, session) := e.run p.session records
    (.tally result, { p with session })
  | .processes => p.withStore .processes p.session.store.all
  | .snapshot => p.withStore (.snapshot <| ·.map Snapshot.contents) p.session.store.all
  | .load id => p.withStore .loaded (p.session.store.load id)
  | .save process => p.withStore .written (p.session.store.save process)
  | .create process => p.withStore .written (p.session.store.create process)
  | .all => p.withStore .processes p.session.store.all
  | .size => (.size p.session.store.roster.size, p)

def step (e : Engine) (p : Play) (time : Option Instant) (s : Step) : Shown × Play :=
  let (answer, after) := (p.prepare time).act e s
  let calls := after.session.store.calls
  (⟨answer, after.session.deliveries.reverse, calls.reverse, after.queue.length⟩,
    { after with faults := Fault.after after.faults calls })

def run (e : Engine) (p : Play) : List (Option Instant × Step) → List Shown × Play
  | [] => ([], p)
  | (time, s) :: rest =>
    let (shown, after) := p.step e time s
    let (others, last) := run e after rest
    (shown :: others, last)

end Play

end TransferLifecycle.Scenario

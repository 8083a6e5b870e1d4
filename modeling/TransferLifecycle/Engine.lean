import TransferLifecycle.Processor
import TransferLifecycle.Record

set_option autoImplicit false

/- The engine replays records. A command gets all its attempts before the next record is looked at;
a process that cannot be created counts as rejected. -/
namespace TransferLifecycle

structure Engine where
  dispatcher : Dispatcher
  policy : RetryPolicy

namespace Engine

/-- The standard handlers, and nobody to tell. -/
def standard (policy : RetryPolicy) : Engine := ⟨⟨Registry.standard, [Listener.silent]⟩, policy⟩

def initiate (s : Session) (id : ProcessId) : Tally × Session :=
  match s.store.create (TransferProcess.initial id s.clock.now) with
  | (.ok (), store) => (⟨1, 0, 0, 0⟩, { s with store, clock := s.clock.advance })
  | (.error _, store) => (⟨0, 1, 0, 0⟩, { s with store, clock := s.clock.advance })

def apply (e : Engine) (s : Session) : Record → Except Interruption Tally × Session
  | .initiate id =>
    let (tally, after) := initiate s id
    (.ok tally, after)
  | .command c =>
    let (result, _, after) := Queue.drain e.policy e.dispatcher.apply s (Queue.push [] c)
    (result, after)

/-- Applies records in order on top of a tally, up to the first interruption. -/
def runFrom (e : Engine) (total : Tally) (s : Session) :
    List Record → Except Interruption Tally × Session
  | [] => (.ok total, s)
  | r :: rest =>
    match e.apply s r with
    | (.error i, after) => (.error i, after)
    | (.ok tally, after) => e.runFrom (total.add tally) after rest

def run (e : Engine) (s : Session) (records : List Record) : Except Interruption Tally × Session :=
  e.runFrom .zero s records

theorem runFrom_append_of_ok (e : Engine) {total mid : Tally} {s after : Session}
    {first : List Record} (h : e.runFrom total s first = (.ok mid, after)) (second : List Record) :
    e.runFrom total s (first ++ second) = e.runFrom mid after second := by
  induction first generalizing total s with
  | nil =>
    simp only [runFrom, Prod.mk.injEq, Except.ok.injEq] at h
    rw [List.nil_append, h.1, h.2]
  | cons r rest ih =>
    rw [List.cons_append, runFrom]
    rw [runFrom] at h
    split
    next i stopped eq => simp [eq] at h
    next tally next eq => rw [eq] at h; exact ih h

def processes (s : Session) : Except StoreError (List TransferProcess) × Session :=
  let (result, store) := s.store.all
  (result, { s with store })

end Engine

end TransferLifecycle

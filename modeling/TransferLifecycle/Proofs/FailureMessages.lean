import TransferLifecycle.Proofs.Verdict

set_option autoImplicit false

/- Every failure has a message, so that its first one can be asked for. An assembly of failures
gives one exactly if its own list has a message; then it keeps the kind it began with and loses no
message on the way. The checks of a command, the rules of transitions and the dispatcher make no
failure without a message either, as long as the handlers make none. -/
namespace TransferLifecycle

namespace Failure

/-- There is a message, and whoever asks for the first one gets it. -/
structure Speaks (f : Failure) : Prop where
  nonempty : f.messages ≠ []
  answered : ∃ message, f.messages.head? = some message ∧ f.firstMessage = .ok message

theorem firstMessage_eq_ok_iff {f : Failure} {message : String} :
    f.firstMessage = .ok message ↔ f.messages.head? = some message := by
  obtain ⟨kind, messages⟩ := f
  cases messages <;> simp [firstMessage, first]

example : firstMessage ⟨.storage, []⟩ =
    .error ⟨"index out of bounds: the len is 0 but the index is 0"⟩ := rfl

theorem speaks_iff (f : Failure) : f.Speaks ↔ f.messages ≠ [] := by
  refine ⟨Speaks.nonempty, fun nonempty => ⟨nonempty, ?_⟩⟩
  obtain ⟨message, rest, parts⟩ := List.exists_cons_of_ne_nil nonempty
  have head : f.messages.head? = some message := by rw [parts, List.head?_cons]
  exact ⟨message, head, firstMessage_eq_ok_iff.2 head⟩

theorem single_speaks (kind : FailureKind) (message : String) : (single kind message).Speaks :=
  (speaks_iff _).2 (List.cons_ne_nil message [])

namespace Assembly

/-- The kind of the list that an assembly begins with. -/
def rootKind : Assembly → FailureKind
  | messages kind _ => kind
  | message base _ | merged base _ => base.rootKind

/-- The list that an assembly begins with. -/
def root : Assembly → List String
  | messages _ list => list
  | message base _ | merged base _ => base.root

/-- What the steps behind the root add, from left to right. A part whose own root is empty is no
failure, and adds nothing, whatever stands behind that root. -/
def added : Assembly → List String
  | messages _ _ => []
  | message base text => base.added ++ [text]
  | merged base part => base.added ++ if part.root = [] then [] else part.root ++ part.added

theorem build_eq (a : Assembly) :
    a.build = if a.root = [] then none else some ⟨a.rootKind, a.root ++ a.added⟩ := by
  induction a with
  | messages kind list => cases list <;> simp [build, ofMessages?, root, rootKind, added]
  | message base text ih =>
    rw [build, ih, root]
    split
    next => rfl
    next => simp [withMessage, rootKind, added]
  | merged base part ihBase ihPart =>
    rw [build, ihBase, root]
    -- the base decides whether there is a failure, the part only whether anything is added
    by_cases empty : base.root = []
    · simp [empty]
    · by_cases absent : part.root = []
      · simp [empty, ihPart, absent, rootKind, added]
      · simp [empty, ihPart, absent, merge, rootKind, added]

theorem build_eq_none_iff (a : Assembly) : a.build = none ↔ a.root = [] := by
  rw [build_eq]
  split <;> simp_all

end Assembly

end Failure

theorem Command.invalid?_speaks {c : Command} {f : Failure} (invalid : c.invalid? = some f) :
    f.Speaks := f.speaks_iff.2 (Failure.ne_nil_of_ofMessages? invalid)

theorem Transition.find_speaks {current : State} {kind : CommandKind} {f : Failure}
    (refused : find current kind = .error f) : f.Speaks := by
  obtain ⟨rfl, -, -⟩ := (find_error_iff current kind f).1 refused
  exact Failure.single_speaks _ _

namespace Handler

/-- The handler refuses nothing without a message. -/
def Speaks (h : Handler) : Prop :=
  ∀ ⦃p c now f⦄, h.handle p c now = .ok (.failure f) → f.Speaks

theorem standard_speaks (kind : CommandKind) : (standard kind).Speaks := by
  intro p c now f failed
  simp only [standard] at failed
  split at failed
  next =>
    have applied := Except.ok.inj failed
    rcases c.applyTo_cases p now with ⟨-, eq⟩ | ⟨-, eq⟩ | eq <;> rw [eq] at applied <;>
      cases applied
    exact Failure.single_speaks _ _
  next => cases failed

/-- What is rejected is what the handler refused. -/
theorem handle_of_decide_reject {h : Handler} {p : TransferProcess} {c : Command} {now : Instant}
    {f : Failure} (decided : h.decide p c now = .ok (.reject f)) :
    h.handle p c now = .ok (.failure f) := by
  unfold decide at decided
  split at decided
  next => cases decided
  next refused =>
    cases decided
    exact refused
  next =>
    split at decided
    next => cases decided
    next => split at decided <;> cases decided

end Handler

theorem Session.Committed.speaks {s after : Session} {h : Handler} {c : Command} {f : Failure}
    (speaks : h.Speaks) (path : s.Committed h c (.ok (.rejected f)) after) : f.Speaks := by
  cases path with
  | loadFailed => exact Failure.single_speaks _ _
  | absent => exact Failure.single_speaks _ _
  | refused stored decided => exact speaks (Handler.handle_of_decide_reject decided)
  | saveRefused => exact Failure.single_speaks _ _
  | saveLost => exact Failure.single_speaks _ _

namespace Dispatcher

variable {d : Dispatcher} {submit : Session → Command → Attempt × Session} {s after : Session}
  {c : Command} {f : Failure}

/-- Whatever calls fail and whatever the listeners do, the dispatcher adds no failure without a
message to those of its handlers. -/
theorem Applied.speaks (speaks : ∀ h ∈ d.registry.handlers, h.Speaks)
    (path : d.Applied submit s c (.ok (.failure f)) after) : f.Speaks := by
  cases path with
  | invalid bound invalid => exact Command.invalid?_speaks invalid
  | rejected bound valid commits =>
    have member := List.mem_of_find?_eq_some bound
    exact (Session.Committed.of_commit commits).speaks (speaks _ member)

theorem apply_speaks (speaks : ∀ h ∈ d.registry.handlers, h.Speaks)
    (failed : (d.apply s c).1 = .ok (.failure f)) : f.Speaks := by
  obtain ⟨submit, -, eq⟩ := d.apply_eq_applyWith s c
  have path := d.applyWith_applied submit s c
  rw [← eq, failed] at path
  exact path.speaks speaks

end Dispatcher

theorem Registry.standard_speaks : ∀ h ∈ standard.handlers, h.Speaks := by
  intro h member
  obtain ⟨kind, -, rfl⟩ := List.mem_map.1 member
  exact Handler.standard_speaks kind

/-- Failures are never without a message, and putting them together keeps every message: there is a
failure exactly if the list at the root has a message, its kind and whether it is worth another
attempt are those of the root, and its messages are the root's and all that were added by parts
that are failures, in order. Nor is a message ever missing where a command is checked, a transition
is refused, or the dispatcher answers with the standard handlers. -/
theorem failures_speak :
    (∀ a : Failure.Assembly, (a.build = none ↔ a.root = []) ∧
      (a.root ≠ [] → ∃ f, a.build = some f ∧ f.kind = a.rootKind ∧
        f.isRetryable = a.rootKind.isRetryable ∧ f.messages = a.root ++ a.added ∧ f.Speaks)) ∧
    (∀ (c : Command) f, c.invalid? = some f → f.Speaks) ∧
    (∀ current kind f, Transition.find current kind = .error f → f.Speaks) ∧
    ∀ (d : Dispatcher) (s : Session) (c : Command) f, d.registry = Registry.standard →
      (d.apply s c).1 = .ok (.failure f) → f.Speaks := by
  refine ⟨fun a => ⟨a.build_eq_none_iff, fun filled => ?_⟩, fun c f => Command.invalid?_speaks,
    fun current kind f => Transition.find_speaks, fun d s c f standard failed => ?_⟩
  · have built := a.build_eq
    rw [if_neg filled] at built
    refine ⟨_, built, rfl, rfl, rfl, (Failure.speaks_iff _).2 ?_⟩
    exact List.append_ne_nil_of_left_ne_nil filled a.added
  · refine Dispatcher.apply_speaks ?_ failed
    rw [standard]
    exact Registry.standard_speaks

/-- Two problems of a command, a part without any, and a failure of the storage with an empty second
message. -/
def Failure.Assembly.gathered : Failure.Assembly :=
  .merged (.merged (.message (.messages .validation ["blank id"]) "blank reason")
    (.message (.messages .storage []) "unheard")) (.message (.messages .storage ["offline"]) "")

theorem failures_speak_gathered :
    (∃ f, Failure.Assembly.gathered.build = some f ∧ f.kind = .validation ∧
      f.isRetryable = false ∧ f.messages = ["blank id", "blank reason", "offline", ""] ∧
      f.Speaks) ∧
    (∃ f, Command.invalid? ⟨⟨" "⟩, .fail ""⟩ = some f ∧ f.messages.length = 2 ∧ f.Speaks) ∧
    (∃ f, Transition.find .completed .resume = .error f ∧ f.Speaks) ∧
    ∃ f, (Dispatcher.apply ⟨Registry.standard, [.silent]⟩
      (.start (.reliable .empty) (.fixed (.ofSeconds 0))) ⟨⟨"tp-1"⟩, .start⟩).1 =
        .ok (.failure f) ∧ f.Speaks := by
  obtain ⟨assembled, checked, refused, applied⟩ := failures_speak
  have invalid : Command.invalid? ⟨⟨" "⟩, .fail ""⟩ =
      some ⟨.validation, ["fail command has a blank process id",
        "fail command for process ' ' requires an error detail"]⟩ := by decide
  have absent : (Dispatcher.apply ⟨Registry.standard, [.silent]⟩
      (.start (.reliable .empty) (.fixed (.ofSeconds 0))) ⟨⟨"tp-1"⟩, .start⟩).1 =
        .ok (.failure (notFoundFailure ⟨"tp-1"⟩)) := rfl
  refine ⟨(assembled .gathered).2 (by decide), ⟨_, invalid, rfl, checked _ _ invalid⟩,
    ⟨_, rfl, refused .completed .resume _ rfl⟩, ⟨_, absent, applied _ _ _ _ rfl absent⟩⟩

end TransferLifecycle

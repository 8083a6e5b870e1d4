import TransferLifecycle.Proofs.Evolution

set_option autoImplicit false

/- What a stored process can look like that came from an initiation and commands. Its state, the
parity of its counter and its detail hang together: Request and Start leave the detail alone, so
what they may leave there depends on every process they can start from. -/
namespace TransferLifecycle

namespace TransferProcess

/-- What `n` transitions, the last of them by the command `last`, leave of a process. -/
def Shape (n : Nat) (last : Option Command) (p : TransferProcess) : Prop :=
  match p.state with
  | .initial => n = 0 ∧ p.errorDetail = none
  | .requested => n = 1 ∧ p.errorDetail = none
  | .started => 2 ≤ n ∧ n % 2 = 0 ∧ p.errorDetail = none
  | .suspended => 3 ≤ n ∧ n % 2 = 1 ∧ ∃ c, last = some c ∧ c.action = .suspend p.errorDetail
  | .completed => 3 ≤ n ∧ n % 2 = 1 ∧ p.errorDetail = none
  | .terminated | .error =>
    1 ≤ n ∧ ∃ text, p.errorDetail = some text ∧ ∃ ch ∈ text.toList, Text.isBlankChar ch = false

theorem shape_initial (id : ProcessId) (now : Instant) : Shape 0 none (initial id now) := ⟨rfl, rfl⟩

end TransferProcess

theorem Text.exists_of_not_isBlank {text : String} (notBlank : isBlank text = false) :
    ∃ ch ∈ text.toList, isBlankChar ch = false := by
  simpa [isBlank] using notBlank

namespace Command

variable {c : Command}

/-- The reason of a termination that is in order has a character to read. -/
theorem readable_reason {reason : String} (valid : c.invalid? = none)
    (terminates : c.action = .terminate reason) :
    ∃ ch ∈ reason.toList, Text.isBlankChar ch = false := by
  apply Text.exists_of_not_isBlank
  have fine := (c.invalid?_eq_none_iff.1 valid).2
  rw [actionProblems, terminates] at fine
  simpa using fine

/-- So has the description of a fault. -/
theorem readable_fault {errorDetail : String} (valid : c.invalid? = none)
    (fails : c.action = .fail errorDetail) :
    ∃ ch ∈ errorDetail.toList, Text.isBlankChar ch = false := by
  apply Text.exists_of_not_isBlank
  have fine := (c.invalid?_eq_none_iff.1 valid).2
  rw [actionProblems, fails] at fine
  simpa using fine

end Command

namespace Link

open TransferProcess (Shape)

variable {asked : Command → Prop} {shown : Instant → Prop} {x : ProcessId}

/-- One transition leads from one shape to the next. -/
theorem Legal.shape {l : Link} {n : Nat} {last : Option Command} (legal : l.Legal asked shown x)
    (shape : Shape n last l.before) : Shape (n + 1) (some l.command) l.after := by
  have entered := legal.target
  have detail := legal.detail
  have source := legal.source
  -- The kind of the command fixes the state it leads to and those it may start from.
  cases action : l.command.action
  all_goals
    simp only [Command.kind, action, Action.kind, CommandKind.target, CommandKind.sources,
      List.mem_singleton, Action.detail] at entered source detail
    simp only [Shape, entered, detail]
  case request =>
    simp only [Shape, source] at shape
    exact ⟨by omega, shape.2⟩
  case start =>
    simp only [Shape, source] at shape
    exact ⟨by omega, by omega, shape.2⟩
  case suspend reason =>
    simp only [Shape, source] at shape
    exact ⟨by omega, by omega, _, rfl, action⟩
  case resume =>
    simp only [Shape, source] at shape
    exact ⟨by omega, by omega, trivial⟩
  case complete =>
    simp only [Shape, source] at shape
    exact ⟨by omega, by omega, trivial⟩
  case terminate reason =>
    exact ⟨by omega, reason, rfl, Command.readable_reason legal.valid action⟩
  case fail errorDetail =>
    exact ⟨by omega, errorDetail, rfl, Command.readable_fault legal.valid action⟩

/-- So a chain leads from a shape to the one that its length and its last command give. -/
theorem Chain.shape {links : List Link} {p q : TransferProcess} {n : Nat} {last : Option Command}
    (chain : Chain (some p) links (some q)) (legal : ∀ l ∈ links, l.Legal asked shown x)
    (shape : Shape n last p) :
    Shape (n + links.length) ((links.getLast?.map command).or last) q := by
  induction links generalizing p n last with
  | nil =>
    obtain rfl := Option.some.inj chain
    exact shape
  | cons l rest ih =>
    obtain rfl := Option.some.inj chain.1
    have later := ih chain.2 (fun k member => legal k (List.mem_cons_of_mem _ member))
      ((legal l List.mem_cons_self).shape shape)
    have length : n + 1 + rest.length = n + (l :: rest).length := by
      rw [List.length_cons, Nat.add_right_comm, Nat.add_assoc]
    have same : (rest.getLast?.map command).or (some l.command) =
        (((l :: rest).getLast?).map command).or last := by
      rw [List.getLast?_cons]
      cases rest.getLast? <;> rfl
    rw [length, same] at later
    exact later

/-- The counter counts the links, until it is full. -/
theorem Chain.count {links : List Link} {p q : TransferProcess}
    (chain : Chain (some p) links (some q)) (legal : ∀ l ∈ links, l.Legal asked shown x) :
    q.stateCount.toNat = min (p.stateCount.toNat + links.length) 0xFFFFFFFF := by
  induction links generalizing p with
  | nil =>
    obtain rfl := Option.some.inj chain
    have bound := q.stateCount.toNat_lt
    rw [List.length_nil]
    omega
  | cons l rest ih =>
    obtain rfl := Option.some.inj chain.1
    have first := (legal l List.mem_cons_self).count
    have later := ih chain.2 fun k member => legal k (List.mem_cons_of_mem _ member)
    rw [later, first, List.length_cons]
    omega

end Link

end TransferLifecycle

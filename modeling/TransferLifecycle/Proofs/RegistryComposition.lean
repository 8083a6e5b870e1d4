import TransferLifecycle.Proofs.Interruptions

set_option autoImplicit false

/- How a registry comes of a list of handlers. The first handler of a kind is the one that stays, a
later one of the kind is refused, and a registry is built exactly when no kind is left without. A
dispatcher over such a registry finds a handler for every command. -/
namespace TransferLifecycle

namespace Registry

namespace Builder

/-- The answer to a handler: refused, if its kind has one. -/
def refusal? (b : Builder) (h : Handler) : Option RegistryError :=
  if b.covers h.kind then some (.duplicateHandler h.kind) else none

/-- The builder after a handler, which stays out if its kind has one. -/
def joined (b : Builder) (h : Handler) : Builder :=
  if b.covers h.kind then b else ⟨b.handlers ++ [h]⟩

theorem registerAll_cons (b : Builder) (h : Handler) (rest : List Handler) :
    b.registerAll (h :: rest) =
      (b.refusal? h :: ((b.joined h).registerAll rest).1, ((b.joined h).registerAll rest).2) := by
  by_cases covered : b.covers h.kind = true
  · rw [registerAll, register, if_pos covered, refusal?, if_pos covered, joined, if_pos covered]
  · rw [registerAll, register, if_neg covered, refusal?, if_neg covered, joined, if_neg covered]

theorem covers_iff (b : Builder) (kind : CommandKind) :
    b.covers kind = true ↔ ∃ h ∈ b.handlers, h.kind = kind := by
  simp only [covers, List.any_eq_true, beq_iff_eq]

/-- A handler that stays out is not the first of its kind. -/
theorem find?_joined (b : Builder) (h : Handler) (kind : CommandKind) :
    (b.joined h).handlers.find? (·.kind == kind) =
      (b.handlers ++ [h]).find? (·.kind == kind) := by
  unfold joined
  split
  next covered =>
    rw [List.find?_append]
    by_cases own : h.kind = kind
    · subst own
      have found : (b.handlers.find? (·.kind == h.kind)).isSome = true := by
        rw [List.find?_isSome]
        simpa only [beq_iff_eq] using (b.covers_iff h.kind).1 covered
      obtain ⟨first, found⟩ := Option.isSome_iff_exists.1 found
      rw [found, Option.some_or]
    · simp [own]
  next => rfl

/-- Of all handlers that were given, the first of a kind is the one that is bound to it. -/
theorem find?_registerAll (b : Builder) (hs : List Handler) (kind : CommandKind) :
    (b.registerAll hs).2.handlers.find? (·.kind == kind) =
      (b.handlers ++ hs).find? (·.kind == kind) := by
  induction hs generalizing b with
  | nil => rw [registerAll, List.append_nil]
  | cons h rest ih =>
    rw [registerAll_cons, ih, List.find?_append, find?_joined, ← List.find?_append,
      List.append_assoc, List.singleton_append]

theorem covers_eq (b : Builder) (kind : CommandKind) :
    b.covers kind = (b.handlers.find? (·.kind == kind)).isSome := by
  rw [List.isSome_find?, covers]

theorem covers_joined (b : Builder) (h : Handler) (kind : CommandKind) :
    (b.joined h).covers kind = true ↔ b.covers kind = true ∨ h.kind = kind := by
  rw [covers_eq, find?_joined, List.find?_append, Option.isSome_or, Bool.or_eq_true, ← covers_eq]
  simp

/-- A handler is refused exactly if there is an earlier one of its kind. -/
theorem registerAll_answers (b : Builder) (hs : List Handler) (i : Nat) :
    (b.registerAll hs).1[i]? = hs[i]?.map fun h =>
      if b.covers h.kind = true ∨ ∃ g ∈ hs.take i, g.kind = h.kind then
        some (.duplicateHandler h.kind) else none := by
  induction hs generalizing b i with
  | nil => rfl
  | cons h rest ih =>
    rw [registerAll_cons]
    cases i with
    | zero => simp [refusal?]
    | succ i =>
      rw [List.getElem?_cons_succ, ih, List.getElem?_cons_succ, List.take_succ_cons]
      simp only [covers_joined, List.mem_cons, exists_eq_or_imp, or_assoc]

theorem covers_registerAll (hs : List Handler) (kind : CommandKind) :
    (empty.registerAll hs).2.covers kind = true ↔ ∃ h ∈ hs, h.kind = kind := by
  rw [covers_eq, find?_registerAll, List.find?_isSome]
  simp only [empty, List.nil_append, beq_iff_eq]

theorem missing_registerAll (hs : List Handler) :
    (empty.registerAll hs).2.missing =
      CommandKind.all.filter fun kind => ∀ h ∈ hs, h.kind ≠ kind := by
  rw [missing]
  refine List.filter_congr fun kind _ => ?_
  rw [Bool.eq_iff_iff, Bool.not_eq_true', ← Bool.not_eq_true, covers_registerAll,
    decide_eq_true_iff]
  simp only [not_exists, not_and, ne_eq]

theorem exists_build_iff (hs : List Handler) :
    (∃ r, (empty.registerAll hs).2.build = .ok r) ↔ ∀ kind, ∃ h ∈ hs, h.kind = kind := by
  constructor
  · rintro ⟨r, success⟩ kind
    exact (covers_registerAll hs kind).1 (((build_ok_iff _ r).1 success).2 kind)
  · intro complete
    exact ⟨_, (build_ok_iff _ _).2
      ⟨rfl, fun kind => (covers_registerAll hs kind).2 (complete kind)⟩⟩

theorem incomplete_of_build {hs : List Handler} {e : RegistryError}
    (failed : (empty.registerAll hs).2.build = .error e) :
    e = .incomplete (CommandKind.all.filter fun kind => ∀ h ∈ hs, h.kind ≠ kind) := by
  rw [build] at failed
  split at failed
  next => cases failed
  next =>
    cases failed
    rw [missing_registerAll]

/-- A registry that was built has the first handler of every kind. -/
theorem resolve_of_build {hs : List Handler} {r : Registry}
    (success : (empty.registerAll hs).2.build = .ok r) (kind : CommandKind) :
    ∃ h, hs.find? (·.kind == kind) = some h ∧ r.resolve kind = some h ∧ h.kind = kind := by
  obtain ⟨rfl, covers⟩ := (build_ok_iff _ r).1 success
  have found := covers kind
  rw [covers_eq] at found
  obtain ⟨h, found⟩ := Option.isSome_iff_exists.1 found
  have resolves : Registry.resolve ⟨(empty.registerAll hs).2.handlers⟩ kind = some h := found
  refine ⟨h, ?_, resolves, kind_of_resolve resolves⟩
  rwa [find?_registerAll, empty, List.nil_append] at found

end Builder

end Registry

open Registry (Builder)

/-- Whatever handlers are given to a new builder, one after the other: which of them are refused,
whether a registry comes of them and what is missing if none does, and which handler it has for a
kind. A command under such a registry is never without a handler; and under the registry of the
standard handlers, only the abort of a listener stops a command short of its outcome. -/
theorem registry_composition (hs : List Handler) :
    (∀ i, (Builder.empty.registerAll hs).1[i]? = hs[i]?.map fun h =>
      if ∃ g ∈ hs.take i, g.kind = h.kind then some (.duplicateHandler h.kind) else none) ∧
    ((∃ r, (Builder.empty.registerAll hs).2.build = .ok r) ↔
      ∀ kind, ∃ h ∈ hs, h.kind = kind) ∧
    (∀ e, (Builder.empty.registerAll hs).2.build = .error e →
      e = .incomplete (CommandKind.all.filter fun kind => ∀ h ∈ hs, h.kind ≠ kind)) ∧
    (∀ r, (Builder.empty.registerAll hs).2.build = .ok r →
      (∀ kind, ∃ h, hs.find? (·.kind == kind) = some h ∧ r.resolve kind = some h ∧
        h.kind = kind) ∧
      ∀ listeners s c kind, (Dispatcher.apply ⟨r, listeners⟩ s c).1 ≠
        .error (.error (.unresolvedHandler kind))) ∧
    (Builder.empty.registerAll (CommandKind.all.map Handler.standard)).2.build =
      .ok Registry.standard ∧
    ∀ listeners s c,
      (∀ fault, (Dispatcher.apply ⟨.standard, listeners⟩ s c).1 ≠ .error (.error fault)) ∧
      (∀ reason, (Dispatcher.apply ⟨.standard, listeners⟩ s c).1 = .error (.abort reason) →
        ∃ l ∈ listeners, ∃ heard cb, l.react heard cb = .abort reason) ∧
      ∀ h p now, Registry.standard.resolve c.kind = some h →
        ∃ outcome, h.handle p c now = .ok outcome := by
  refine ⟨fun i => ?_, Builder.exists_build_iff hs, fun e => Builder.incomplete_of_build,
    fun r success => ⟨Builder.resolve_of_build success, fun listeners s c => ?_⟩, rfl, ?_⟩
  · have start : ∀ kind, Builder.empty.covers kind = false := fun _ => rfl
    simp only [Builder.registerAll_answers, start, Bool.false_eq_true, false_or]
  · refine Dispatcher.apply_ne_unresolved (fun kind => ?_) s c
    obtain ⟨h, -, resolves, -⟩ := Builder.resolve_of_build success kind
    rw [resolves]
    rfl
  · intro listeners s c
    refine ⟨fun fault stopped => ?_, fun reason stopped => ?_, fun h p now bound => ?_⟩
    · obtain ⟨reason, other, -⟩ := Dispatcher.apply_interrupted rfl stopped
      cases other
    · obtain ⟨reason, same, aborts⟩ := Dispatcher.apply_interrupted rfl stopped
      cases same
      exact aborts
    · exact Handler.standard_total bound p now

end TransferLifecycle

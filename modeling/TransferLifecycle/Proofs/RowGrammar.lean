import TransferLifecycle.CommandLog.Row
import TransferLifecycle.Proofs.SpelledWords

set_option autoImplicit false

/- Which rows of a command log are records, and what they are records of. A row needs a process that
is not blank and one of eight words, in any case; its texts are trimmed. The only records that the
dispatcher finds fault with are those which lack a detail that they need. -/
namespace TransferLifecycle

theorem CommandKind.ofName?_eq_some_iff (text : String) (kind : CommandKind) :
    ofName? text = some kind ↔ text = kind.name := by
  constructor
  · intro found
    have same := List.find?_some found
    rw [beq_iff_eq] at same
    exact same.symm
  · rintro rfl
    exact ofName?_name kind

namespace Action

/-- The text that an action cannot be without. -/
def needed? : Action → Option String
  | terminate reason => some reason
  | fail errorDetail => some errorDetail
  | _ => none

theorem needed?_ofKind (kind : CommandKind) (text : Option String) :
    (ofKind kind text).needed? =
      if kind = .terminate ∨ kind = .fail then some (text.getD "") else none := by
  cases kind <;> rfl

variable {kind : CommandKind} {text : Option String}

theorem reason_of_ofKind {reason : Option String} (same : ofKind kind text = suspend reason) :
    reason = text := by
  cases kind <;> cases same
  rfl

theorem text_of_ofKind {needed : String}
    (same : ofKind kind text = terminate needed ∨ ofKind kind text = fail needed) :
    needed = text.getD "" := by
  have stated : (ofKind kind text).needed? = some needed := by
    rcases same with same | same <;> rw [same] <;> rfl
  rw [needed?_ofKind] at stated
  split at stated
  next => exact (Option.some.inj stated).symm
  next => cases stated

end Action

namespace Command

theorem length_actionProblems (c : Command) :
    c.actionProblems.length = if c.action.needed?.any Text.isBlank then 1 else 0 := by
  obtain ⟨id, action⟩ := c
  cases action with
  | terminate reason =>
    cases blank : Text.isBlank reason <;> simp [actionProblems, Action.needed?, blank]
  | fail detail =>
    cases blank : Text.isBlank detail <;> simp [actionProblems, Action.needed?, blank]
  | _ => rfl

/-- A command for a process that is not blank has a needed text, or one problem. -/
theorem invalid?_of_present {c : Command} (present : c.processId.isBlank = false) :
    (c.invalid? = none ↔ c.action.needed?.any Text.isBlank = false) ∧
    ∀ f, c.invalid? = some f → f.kind = .validation ∧ ∃ message, f.messages = [message] := by
  have named : c.idProblems = [] := by
    rw [idProblems, present]
    rfl
  have count := c.length_actionProblems
  constructor
  · have free : c.actionProblems = [] ↔ c.actionProblems.length = 0 := List.length_eq_zero_iff.symm
    rw [invalid?_eq_none_iff, free, count]
    simp [named]
  · intro f failed
    rw [invalid?, named, List.nil_append] at failed
    obtain ⟨kind, messages⟩ := Failure.messages_of_ofMessages? failed
    have positive : 0 < f.messages.length :=
      List.length_pos_iff.2 (Failure.ne_nil_of_ofMessages? failed)
    refine ⟨kind, List.length_eq_one_iff.1 ?_⟩
    rw [messages, count] at positive ⊢
    split at positive
    next blank => rw [if_pos blank]
    next => cases positive

end Command

namespace CommandLog

/-- The word that a record is written with. -/
def wordOf : Record → String
  | .initiate _ => "initiate"
  | .command c => c.kind.name

/-- All words of a log. -/
def words : List String := "initiate" :: CommandKind.all.map (·.name)

theorem plain_of_mem_words {word : String} (member : word ∈ words) :
    word.toList.all Text.isPlainLetter = true := by
  have all : words.all (fun word => word.toList.all Text.isPlainLetter) = true := by decide
  exact List.all_eq_true.1 all word member

theorem wordOf_mem_words (record : Record) : wordOf record ∈ words := by
  cases record with
  | initiate id => exact List.mem_cons_self
  | command c => exact List.mem_cons_of_mem _ (List.mem_map.2 ⟨c.kind, c.kind.mem_all, rfl⟩)

/-- The record of a word, for a process and a detail. -/
inductive Stands (word : String) (id : ProcessId) (detail : Option String) : Record → Prop
  | initiate (named : word = "initiate") : Stands word id detail (.initiate id)
  | command (kind : CommandKind) (named : word = kind.name) :
      Stands word id detail (.command ⟨id, .ofKind kind detail⟩)

theorem recordFor?_eq_some_iff (word : String) (id : ProcessId) (detail : Option String)
    (record : Record) : recordFor? word id detail = some record ↔ Stands word id detail record := by
  constructor
  · intro found
    rw [recordFor?] at found
    split at found
    next named =>
      cases found
      exact .initiate named
    next =>
      obtain ⟨kind, named, rfl⟩ := Option.map_eq_some_iff.1 found
      exact .command kind ((CommandKind.ofName?_eq_some_iff word kind).1 named)
  · rintro (named | ⟨kind, named⟩)
    · rw [recordFor?, if_pos named]
    · have other : kind.name ≠ "initiate" := by cases kind <;> decide
      rw [recordFor?, named, if_neg other, CommandKind.ofName?_name]
      rfl

/-- The word of the record is the word that it stands for. -/
theorem Stands.wordOf_eq {word : String} {id : ProcessId} {detail : Option String} {record : Record}
    (stands : Stands word id detail record) : wordOf record = word := by
  cases stands with
  | initiate named => exact named.symm
  | command kind named => rw [wordOf, Command.kind, Action.kind_ofKind, named]

theorem exists_stands {word : String} (member : word ∈ words) (id : ProcessId)
    (detail : Option String) : ∃ record, Stands word id detail record := by
  rcases List.mem_cons.1 member with rfl | member
  · exact ⟨_, .initiate rfl⟩
  · obtain ⟨kind, -, rfl⟩ := List.mem_map.1 member
    exact ⟨_, .command kind rfl⟩

namespace Row

variable {row : Row} {record : Record}

/-- The row has no detail, or one of blanks only. -/
def lacksDetail (row : Row) : Bool := row.detail.all Text.isBlank

theorem detailText_eq (row : Row) :
    row.detailText = if row.lacksDetail then none else some (Text.trim (row.detail.getD "")) := by
  rw [detailText, lacksDetail]
  cases row.detail with
  | none => rfl
  | some text =>
    rw [Option.map_some, Option.getD_some, Option.all_some]
    cases blank : Text.isBlank text with
    | true =>
      have empty := (Text.isBlank_iff_trim text).1 blank
      rw [empty]
      rfl
    | false =>
      have filled : Text.trim text ≠ "" := by
        rw [Ne, ← Text.isBlank_iff_trim, blank]
        exact Bool.false_ne_true
      rw [Option.filter, if_pos (decide_eq_true filled)]
      rfl

theorem isBlank_trim_detail (row : Row) :
    Text.isBlank (Text.trim (row.detail.getD "")) = row.lacksDetail := by
  rw [Text.isBlank_trim, lacksDetail]
  cases row.detail <;> rfl

/-- A detail that is missing is as good as an empty one. -/
theorem getD_detailText (row : Row) : row.detailText.getD "" = Text.trim (row.detail.getD "") := by
  have blank := row.isBlank_trim_detail
  rw [detailText_eq]
  split
  next lacks =>
    rw [lacks, Text.isBlank_iff_trim, Text.trim_trim] at blank
    exact blank.symm
  next => rfl

/-- Whatever lowering makes of the word of a row, the record is that of the lowered word. -/
theorem toRecord_eq_ok_iff {lowered : String}
    (lowers : Text.Lowers (Text.trim row.command).toList lowered.toList) :
    row.toRecord = .ok record ↔ Text.isBlank row.process = false ∧
      Stands lowered ⟨Text.trim row.process⟩ row.detailText record := by
  have same : recordFor? (Text.lower (Text.trim row.command)) ⟨Text.trim row.process⟩
      row.detailText = some record ↔
        Stands lowered ⟨Text.trim row.process⟩ row.detailText record := by
    have own := Text.lowers_lower (Text.trim row.command)
    have word : ∀ {word}, word ∈ words →
        (Text.lower (Text.trim row.command) = word ↔ lowered = word) := fun member =>
      (own.spells_iff (plain_of_mem_words member)).trans
        (lowers.spells_iff (plain_of_mem_words member)).symm
    rw [recordFor?_eq_some_iff]
    constructor
    · intro stands
      have named := (word (wordOf_mem_words record)).1 stands.wordOf_eq.symm
      rwa [named, stands.wordOf_eq]
    · intro stands
      have named := (word (wordOf_mem_words record)).2 stands.wordOf_eq.symm
      rwa [named, stands.wordOf_eq]
  rw [← same, toRecord]
  by_cases blank : Text.trim row.process = ""
  · rw [if_pos blank, (Text.isBlank_iff_trim _).2 blank]
    simp
  · have present : Text.isBlank row.process = false := by
      rw [← Bool.not_eq_true, Text.isBlank_iff_trim]
      exact blank
    rw [if_neg blank, present]
    cases recordFor? (Text.lower (Text.trim row.command)) ⟨Text.trim row.process⟩ row.detailText <;>
      simp

/-- A record as it comes of a row: its word is the word of the row in any case, and its texts are
those of the row, trimmed. The command of a record is valid, but for a termination or a fault of
which the row does not say why. -/
structure Canonical (row : Row) (record : Record) : Prop where
  word : Text.sameLetters (Text.trim row.command) (wordOf record) = true
  id : record.processId = ⟨Text.trim row.process⟩
  present : record.processId.isBlank = false
  reason : ∀ id reason, record = .command ⟨id, .suspend reason⟩ →
    reason = if row.lacksDetail then none else some (Text.trim (row.detail.getD ""))
  trimmed : ∀ id text, record = .command ⟨id, .suspend (some text)⟩ →
    Text.trim text = text ∧ Text.isBlank text = false
  text : ∀ id text,
    record = .command ⟨id, .terminate text⟩ ∨ record = .command ⟨id, .fail text⟩ →
    text = Text.trim (row.detail.getD "")
  valid : ∀ c, record = .command c → (c.invalid? = none ↔
    ¬ ((c.kind = .terminate ∨ c.kind = .fail) ∧ row.lacksDetail = true))
  problem : ∀ c f, record = .command c → c.invalid? = some f →
    f.kind = .validation ∧ ∃ message, f.messages = [message]

theorem canonical_of_stands {lowered : String}
    (lowers : Text.Lowers (Text.trim row.command).toList lowered.toList)
    (present : Text.isBlank row.process = false)
    (stands : Stands lowered ⟨Text.trim row.process⟩ row.detailText record) :
    row.Canonical record := by
  have word : Text.sameLetters (Text.trim row.command) (wordOf record) = true :=
    (lowers.spells_iff (plain_of_mem_words (wordOf_mem_words record))).1 stands.wordOf_eq.symm
  have given : ProcessId.isBlank ⟨Text.trim row.process⟩ = false := by
    rw [ProcessId.isBlank, Text.isBlank_trim, present]
  cases stands with
  | initiate named =>
    exact ⟨word, rfl, given, nofun, nofun, nofun, nofun, nofun⟩
  | command kind spelled =>
    have action : ∀ {id action},
        Record.command ⟨⟨Text.trim row.process⟩, .ofKind kind row.detailText⟩ =
          .command ⟨id, action⟩ → Action.ofKind kind row.detailText = action :=
      fun same => (Command.mk.inj (Record.command.inj same)).2
    have named : (Command.mk ⟨Text.trim row.process⟩
        (.ofKind kind row.detailText)).processId.isBlank = false := given
    have checked := Command.invalid?_of_present named
    refine ⟨word, rfl, given, ?_, ?_, ?_, ?_, ?_⟩
    · intro id reason same
      rw [← row.detailText_eq]
      exact Action.reason_of_ofKind (action same)
    · intro id text same
      have found := Action.reason_of_ofKind (action same)
      rw [detailText_eq] at found
      split at found
      next => cases found
      next filled =>
        obtain rfl := Option.some.inj found
        rw [row.isBlank_trim_detail]
        exact ⟨Text.trim_trim _, Bool.eq_false_iff.2 filled⟩
    · intro id text same
      rw [← row.getD_detailText]
      exact Action.text_of_ofKind (same.imp action action)
    · rintro c same
      obtain rfl := Record.command.inj same
      rw [checked.1, Action.needed?_ofKind, Command.kind, Action.kind_ofKind]
      split
      next needs =>
        rw [Option.any_some, row.getD_detailText, row.isBlank_trim_detail]
        simp [needs]
      next free => simp [free]
    · rintro c f same failed
      obtain rfl := Record.command.inj same
      exact checked.2 f failed

/-- A row is a record exactly if it has a process that is not blank and, in any case, one of the
words of a log; the record is the canonical one of the row. It does not matter for that how the
word is lowered, as long as no character outside ASCII, the Kelvin sign apart, becomes ASCII. -/
theorem toRecord_grammar (row : Row) :
    ((∃ record, row.toRecord = .ok record) ↔ Text.isBlank row.process = false ∧
      ∃ word ∈ words, Text.sameLetters (Text.trim row.command) word = true) ∧
    (∀ record, row.toRecord = .ok record → row.Canonical record) ∧
    ∀ lowered : String, Text.Lowers (Text.trim row.command).toList lowered.toList →
      ∀ record, row.toRecord = .ok record ↔ Text.isBlank row.process = false ∧
        recordFor? lowered ⟨Text.trim row.process⟩ row.detailText = some record := by
  have own := Text.lowers_lower (Text.trim row.command)
  refine ⟨⟨?_, ?_⟩, fun record read => ?_, fun lowered lowers record => ?_⟩
  · rintro ⟨record, read⟩
    obtain ⟨present, stands⟩ := (toRecord_eq_ok_iff own).1 read
    exact ⟨present, wordOf record, wordOf_mem_words record,
      (canonical_of_stands own present stands).word⟩
  · rintro ⟨present, word, member, spelled⟩
    have named := (own.spells_iff (plain_of_mem_words member)).2 spelled
    obtain ⟨record, stands⟩ := exists_stands member ⟨Text.trim row.process⟩ row.detailText
    refine ⟨record, (toRecord_eq_ok_iff own).2 ⟨present, ?_⟩⟩
    rwa [named]
  · obtain ⟨present, stands⟩ := (toRecord_eq_ok_iff own).1 read
    exact canonical_of_stands own present stands
  · rw [recordFor?_eq_some_iff]
    exact toRecord_eq_ok_iff lowers

end Row

end CommandLog

end TransferLifecycle

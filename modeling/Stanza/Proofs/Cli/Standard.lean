import Stanza.Cli.Standard
import Stanza.Proofs.Cli.Laws
import Stanza.Proofs.Json.Refusal
import Stanza.Proofs.Steps
import Stanza.Proofs.Yaml.Refusal

/-!
What is known of the tools of the program.

The tools that this program runs with keep the laws that results about runs rest on
(`Settings.Codec.standard_isLawful`, `Cli.Parser.standard_isLawful`), as its console does
(`Cli.Console.standard_isLawful`). Its readers fail on a file, instead of refusing it, only for what
can be pointed out in the text: an integer of too many digits where a JSON value may stand, and a
scalar, an escape or a version in YAML that denotes nothing (`Source.Readers.standard_broken`,
`Settings.Codec.standard_broken`).
-/

namespace Stanza

/-! ### What the readers fail on -/

theorem Yaml.refusal_eq_broken {error : Yaml.ReadError} {account : String}
    (h : error.refusal = .broken account) : error ≠ .malformed ∧ account = error.account := by
  cases error <;> simp_all [Yaml.ReadError.refusal]

/-- A file that a reader of YAML fails on is a text, and something else is wrong with it than that
it is not in the language. -/
theorem Yaml.ofBytes_eq_broken {α : Type} {read : List Char → Except Yaml.ReadError α}
    {bytes : List UInt8} {account : String}
    (h : Yaml.ofBytes read bytes = .error (.broken account)) :
    ∃ text error, Text.decodeFile bytes = some text ∧ read text = .error error ∧
      error ≠ .malformed ∧ account = error.account := by
  unfold Yaml.ofBytes at h
  split at h
  · rename_i text htext
    obtain ⟨error, hread, hrefusal⟩ := mapError_eq_error_iff.mp h
    obtain ⟨hproper, haccount⟩ := Yaml.refusal_eq_broken hrefusal
    exact ⟨text, error, htext, hread, hproper, haccount⟩
  · cases h

/-- **What the readers of sources fail on**: a document is begun that goes on with an integer of too
many digits, or a text in YAML is refused for something in it that denotes nothing. -/
theorem Source.Readers.standard_broken {language : SourceLanguage} {bytes : List UInt8}
    {account : String}
    (h : Source.Readers.standard.documents language bytes = .error (.broken account)) :
    ∃ text, Text.decodeFile bytes = some text ∧
      ((language = .json ∧ ∃ before after digits,
          Json.Token.ofText text = before ++ .tooLong digits :: after ∧ Json.AwaitsValue before ∧
          Json.HoldsLongRun text digits) ∨
        (language = .yaml ∧ ∃ error, Yaml.documents text = .error error ∧
          account = error.account ∧ Yaml.Refuses (Yaml.Token.ofText text) error)) := by
  cases language with
  | json =>
    unfold Source.Readers.documents at h
    dsimp only at h
    split at h
    · rename_i text htext
      refine ⟨text, htext, .inl ⟨rfl, ?_⟩⟩
      obtain ⟨error, hread, hrefusal⟩ := mapError_eq_error_iff.mp (map_eq_error_iff.mp h)
      cases error with
      | malformed => cases hrefusal
      | tooLong digits =>
        obtain ⟨before, after, htokens, hawaits⟩ := Json.ofText_eq_tooLong_iff.mp hread
        exact ⟨before, after, digits, htokens, hawaits,
          Json.holdsLongRun_of_mem_ofText (htokens ▸ by simp)⟩
    · cases h
  | yaml =>
    obtain ⟨text, error, htext, hread, hproper, haccount⟩ := Yaml.ofBytes_eq_broken h
    exact ⟨text, htext, .inr ⟨rfl, error, hread, haccount, Yaml.documents_eq_error hread hproper⟩⟩

/-- **What the reader of configuration files fails on**: something in its text that denotes
nothing. -/
theorem Settings.Codec.standard_broken {bytes : List UInt8} {account : String}
    (h : Settings.Codec.standard.read bytes = .error (.broken account)) :
    ∃ text error, Text.decodeFile bytes = some text ∧ Yaml.document text = .error error ∧
      account = error.account ∧ Yaml.Refuses (Yaml.Token.ofText text) error := by
  obtain ⟨text, error, htext, hread, hproper, haccount⟩ := Yaml.ofBytes_eq_broken h
  exact ⟨text, error, htext, hread, haccount, Yaml.document_eq_error hread hproper⟩

/-! ### The default settings -/

namespace Settings.Codec

/-- Whether a value is that of the default settings. -/
def isDefaultValue : Value → Bool
  | .mapping [(.text "output_dir", .text "./IaC"), (.text "verify", .bool true),
    (.text "format", .mapping [(.text "indent_width", .int 2),
      (.text "blank_line_between_children", .bool true), (.text "align_equals", .bool false),
      (.text "inline_list_max", .null), (.text "validate_expressions", .bool false)])] => true
  | _ => false

theorem eq_of_isDefaultValue {v : Value} (h : isDefaultValue v) : v = .mapping defaultEntries := by
  unfold isDefaultValue at h
  split at h
  · rfl
  · cases h

/-- What the program writes for the default settings is read as what they are. -/
theorem standard_isLawful : standard.IsLawful where
  read_default := by
    have hread : (standard.read (defaultBytes standard)).toOption.any isDefaultValue := by
      decide +kernel
    obtain ⟨value, hvalue, hdefault⟩ := exists_ok_of_any hread
    rw [hvalue, eq_of_isDefaultValue hdefault]

end Settings.Codec

/-! ### Words and lines -/

namespace Cli

theorem Parser.standard_isLawful : Parser.standard.IsLawful where
  file _ := rfl
  directory := rfl
  missing error herror := by
    cases error with
    | nullCharacter => exact absurd rfl herror
    | _ => rfl
  null := rfl

end Cli

end Stanza

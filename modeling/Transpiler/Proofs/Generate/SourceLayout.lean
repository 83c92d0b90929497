import Transpiler.Proofs.Generate.Locations
import Transpiler.Proofs.Grammar.EndOfFile
import Transpiler.Proofs.Token.BlankLines
import Transpiler.Proofs.Token.LineEndings

/-!
Contract: what the layout of a source may change.

Owns: that sources whose tokens have the same kinds differ only in the places of their trees and
errors (`AgreeUpToPlaces`), and the two changes of layout that keep the kinds of the tokens:
lines without tokens and line endings.

Does not own: the tokens of such sources, or that generation commutes with changes of locations.
-/

namespace Transpiler

/-! ### Sources with tokens of the same kinds -/

namespace Module

/-- Tokens elsewhere form the same module elsewhere. -/
theorem ofTokens_relocate (move : Relocation) (tokens : List Token) :
    ofTokens (tokens.map (·.relocate move)) =
      ((ofTokens tokens).map (·.relocate move)).mapError (·.relocate move) := by
  rw [← ofTokens_through, Token.through_map_relocate, ofTokens_image]

/-- What tokens of some kinds form without places, or what the kind of an error comes to. -/
def ofKinds : Except (Halt LexErrorKind) (List TokenKind) → Except (Halt ParseError) Module
  | .ok kinds => (ofTokens (kinds.map (⟨·, .dummy⟩))).mapError .fault
  | .error halt => .error (halt.map fun kind => ⟨.lexical ⟨kind, .dummy⟩, .dummy⟩)

/-- Without places, a source forms what the kinds of its tokens form. -/
private theorem ofKinds_tokenKinds (source : String) :
    ofKinds (tokenKinds (tokenize source)) =
      ((ofSource source).map (·.relocate .forget)).mapError (Halt.map (·.relocate .forget)) := by
  rw [ofSource]
  cases tokenize source with
  | error halt => cases halt <;> rfl
  | ok tokens =>
      dsimp only
      rw [tokenKinds, ofKinds, ← Token.map_relocate_forget, ofTokens_relocate .forget tokens]
      cases ofTokens tokens <;> rfl

/-- What `next` makes of the module of a source, or the error without its places. -/
def outcome {α : Type} (source : String) (next : Module → α) :
    Except (Halt ParseError) α :=
  ((ofSource source).map next).mapError (Halt.map (·.relocate .forget))

end Module

/-- Two sources that are told apart only by places: their tokens have the same kinds, they form
the same module, and the module generates the same code and the same failures, whatever the
generator. Where one of the steps fails, it fails alike for both. -/
structure AgreeUpToPlaces (first second : String) : Prop where
  tokens : tokenKinds (tokenize first) = tokenKinds (tokenize second)
  tree : Module.outcome first Module.unlocated = Module.outcome second Module.unlocated
  code (generator : Generator) :
    Module.outcome first (fun tree => (generator.generate tree).relocate .forget) =
      Module.outcome second (fun tree => (generator.generate tree).relocate .forget)

/-- What is made of a module without its places is decided by the kinds of the tokens. -/
theorem Module.outcome_eq_of_tokenKinds {α : Type} {first second : String} {next : Module → α}
    (kinds : tokenKinds (tokenize first) = tokenKinds (tokenize second)) (core : Module → α)
    (unplaced : ∀ tree, next tree = core (tree.relocate .forget)) :
    outcome first next = outcome second next := by
  have viaKinds (source : String) :
      outcome source next = (ofKinds (tokenKinds (tokenize source))).map core := by
    rw [ofKinds_tokenKinds, outcome, funext unplaced]
    cases ofSource source <;> rfl
  rw [viaKinds first, viaKinds second, kinds]

private theorem agreeUpToPlaces_of_tokenKinds {first second : String}
    (kinds : tokenKinds (tokenize first) = tokenKinds (tokenize second)) :
    AgreeUpToPlaces first second where
  tokens := kinds
  tree := Module.outcome_eq_of_tokenKinds kinds id fun tree => (tree.relocate_forget).symm
  code generator := Module.outcome_eq_of_tokenKinds kinds generator.generate fun tree =>
    (generator.generate_relocate .forget tree).symm

/-! ### Changes of layout -/

/-- Lines without tokens do not matter. A line of blanks, perhaps with a comment, can be put in
wherever a line starts: at the beginning of the source or after any line break that is not part
of a continuation, in brackets and between blocks too. -/
theorem agreeUpToPlaces_insert_blankLine (front content back : String)
    (starts : Lexeme.StartsLine front.toList back.toList)
    (blank : Layout.isBlankLine content.toList = true) (oneLine : '\n' ∉ content.toList)
    (fits : (front ++ (content ++ "\n") ++ back).utf8ByteSize ≤ 0xffffffff) :
    AgreeUpToPlaces (front ++ (content ++ "\n") ++ back) (front ++ back) := by
  have size : (front ++ (content ++ "\n") ++ back).utf8ByteSize =
      (front ++ back).utf8ByteSize + (content ++ "\n").utf8ByteSize := by
    simp only [String.utf8ByteSize_append]
    omega
  have smaller : (front ++ back).utf8ByteSize ≤ 0xffffffff := by omega
  have shape : (front ++ (content ++ "\n") ++ back).toList =
      front.toList ++ (content.toList ++ '\n' :: back.toList) := by
    simp
  apply agreeUpToPlaces_of_tokenKinds
  rw [tokenize_of_small fits, tokenize_of_small smaller, shape, String.toList_append]
  exact tokenKinds_insert_blankLine starts blank oneLine

/-- A comment with a margin of its own, in the brackets of a call that is in a block. -/
theorem agreeUpToPlaces_insert_blankLine_call :
    let front := "if a:\n    b(1,\n"
    let content := "\t\r # two"
    let back := "2)\nc: int = 3\n"
    let generator : Generator := ⟨.cpp, ⟨false, .collectAll⟩⟩
    Lexeme.StartsLine front.toList back.toList ∧
      Layout.isBlankLine content.toList = true ∧ '\n' ∉ content.toList ∧
      (front ++ (content ++ "\n") ++ back).utf8ByteSize ≤ 0xffffffff ∧
      AgreeUpToPlaces (front ++ (content ++ "\n") ++ back) (front ++ back) ∧
      Module.outcome (front ++ back) (fun tree => (generator.generate tree).relocate .forget) =
        .ok ⟨"int c = 3;\n",
          [.unsupported ⟨"generator/cpp", "statement", "If", .dummy⟩ none]⟩ := by
  intro front content back generator
  have starts : Lexeme.StartsLine front.toList back.toList :=
    .inr ⟨(Lexeme.split (front ++ back).toList).take 10,
      (Lexeme.split (front ++ back).toList).drop 11, by decide +kernel, by decide +kernel⟩
  have blank : Layout.isBlankLine content.toList = true := by decide +kernel
  have oneLine : '\n' ∉ content.toList := by decide +kernel
  have fits : (front ++ (content ++ "\n") ++ back).utf8ByteSize ≤ 0xffffffff := by decide +kernel
  exact ⟨starts, blank, oneLine, fits,
    agreeUpToPlaces_insert_blankLine front content back starts blank oneLine fits,
    by decide +kernel⟩

/-- Line endings do not matter. A source without carriage returns may have one put before every
line feed, also in comments, continuations, strings and behind stray backslashes. -/
theorem agreeUpToPlaces_crlf (source : String) (noReturn : '\r' ∉ source.toList)
    (fits : (String.ofList (Text.crlf source.toList)).utf8ByteSize ≤ 0xffffffff) :
    AgreeUpToPlaces (String.ofList (Text.crlf source.toList)) source := by
  have smaller : source.utf8ByteSize ≤ (String.ofList (Text.crlf source.toList)).utf8ByteSize := by
    rw [← Text.byteLength_toList, Text.utf8ByteSize_ofList]
    exact Text.byteLength_le_crlf _
  apply agreeUpToPlaces_of_tokenKinds
  rw [tokenize_of_small fits, tokenize_of_small (smaller.trans fits), String.toList_ofList]
  exact Layout.endingsAlike_of_noReturn noReturn _ _ 0 0 (.refl _)

/-- A comment, a continuation and a string that its line does not close. -/
theorem agreeUpToPlaces_crlf_unclosed :
    let source := "f(1,  # one\n  2) + \\ \n3\ng('a\\\n')\n"
    '\r' ∉ source.toList ∧
      String.ofList (Text.crlf source.toList) =
        "f(1,  # one\r\n  2) + \\ \r\n3\r\ng('a\\\r\n')\r\n" ∧
      (String.ofList (Text.crlf source.toList)).utf8ByteSize ≤ 0xffffffff ∧
      AgreeUpToPlaces (String.ofList (Text.crlf source.toList)) source ∧
      tokenKinds (tokenize source) = .error (.fault .unterminatedString) := by
  intro source
  have noReturn : '\r' ∉ source.toList := by decide +kernel
  have fits : (String.ofList (Text.crlf source.toList)).utf8ByteSize ≤ 0xffffffff := by
    decide +kernel
  exact ⟨noReturn, by decide +kernel, fits, agreeUpToPlaces_crlf source noReturn fits,
    by decide +kernel⟩

end Transpiler

import Transpiler.Proofs.Generate.Locations
import Transpiler.Proofs.Grammar.Balance
import Transpiler.Proofs.Grammar.Soundness
import Transpiler.Proofs.Token.Joining

/-!
Contract: the tree and the code of two sources with a line break between them.

Owns: that the tree of the joined source has the statements of both, up to their locations,
and that its code is the code of both.

Does not own: which sources are joined.
-/

namespace Transpiler
namespace Module

/-- The grammar derives the module of a source from all of its tokens but the end of file. -/
private theorem lines_of_tokenize {source : String} {tokens : List Token} {tree : Module}
    (tokenized : tokenize source = .ok tokens) (parsed : ofTokens tokens = .ok tree)
    (opaqueFree : tree.isOpaqueFree = true) :
    ∃ body last, tokens = body ++ [last] ∧ last.kind = .endOfFile ∧
      Grammar.Lines Level.nestingLimit tree.body (body.map (·.kind)) := by
  obtain ⟨body, last, rfl, atEnd, before⟩ := tokenize_endOfFile tokenized
  refine ⟨body, last, rfl, atEnd, ?_⟩
  have written := lines_of_ofTokens parsed opaqueFree
  have taken : (body ++ [last]).takeWhile (·.kind != .endOfFile) = body := by
    rw [List.takeWhile_append_of_pos (by simpa using before)]
    simp [atEnd]
  rwa [taken] at written

/-- Two sources inside the subset, with a line break between them, form a module with the
statements of both. -/
theorem ofSource_join {first second : String} {firstTree secondTree : Module}
    (fits : (first ++ "\n" ++ second).utf8ByteSize ≤ Span.offsetLimit)
    (firstParsed : ofSource first = .ok firstTree)
    (secondParsed : ofSource second = .ok secondTree)
    (firstFree : firstTree.isOpaqueFree = true) (secondFree : secondTree.isOpaqueFree = true) :
    ∃ tree, ofSource (first ++ "\n" ++ second) = .ok tree ∧
      tree.unlocated = (⟨firstTree.body ++ secondTree.body⟩ : Module).unlocated := by
  obtain ⟨firstTokens, firstTokenized, firstParsed⟩ := ofSource_eq_ok_iff.mp firstParsed
  obtain ⟨secondTokens, secondTokenized, secondParsed⟩ := ofSource_eq_ok_iff.mp secondParsed
  obtain ⟨firstBody, firstLast, rfl, firstEnd, firstLines⟩ :=
    lines_of_tokenize firstTokenized firstParsed firstFree
  obtain ⟨secondBody, secondLast, rfl, secondEnd, secondLines⟩ :=
    lines_of_tokenize secondTokenized secondParsed secondFree
  have noBlock : .indent ∉ (firstBody ++ [firstLast]).map (·.kind) := by
    simpa [firstEnd] using firstLines.indent_not_mem
  have balanced : Layout.depthOf ((firstBody ++ [firstLast]).map (·.kind)) = 0 := by
    rw [List.map_append, Layout.depthOf_append, Layout.depthOf, firstLines.balanced]
    simp [firstEnd, Layout.depthAfter]
  obtain ⟨front, tokenized, shape, ended⟩ :=
    tokenize_join fits firstTokenized secondTokenized noBlock balanced
  have sameKinds : front.map (·.kind) = firstBody.map (·.kind) := by
    rw [List.map_append, List.map_singleton, firstEnd] at shape
    exact List.append_cancel_right shape
  have lines : Grammar.Lines Level.nestingLimit (firstTree.body ++ secondTree.body)
      (firstBody.map (·.kind) ++ secondBody.map (·.kind)) := by
    refine firstLines.append ?_ secondLines
    rw [← sameKinds, List.getLast?_map]
    intro kind isLast
    obtain ⟨token, isLastToken, rfl⟩ := Option.map_eq_some_iff.mp isLast
    exact ended token isLastToken
  have allKinds : (front ++ secondBody.map (·.shift (first.utf8ByteSize + 1))).map (·.kind) =
      firstBody.map (·.kind) ++ secondBody.map (·.kind) := by
    simp [sameKinds, Function.comp_def]
  have atEnd : Cursor.headKind ([secondLast].map (·.shift (first.utf8ByteSize + 1))) =
      .endOfFile := secondEnd
  obtain ⟨tree, parsed, same⟩ := ofTokens_of_lines lines allKinds atEnd
  rw [List.map_append, ← List.append_assoc] at tokenized
  exact ⟨tree, ofSource_eq_ok_iff.mpr ⟨_, tokenized, parsed⟩, same⟩

end Module

/-- Generating distributes over sources with a line break between them. If each of two sources
forms a module that is generated without a failure, the joined source, unless it is too
large, forms a module that is generated without a failure too, and its code is the code of
the first source followed by that of the second. -/
theorem Generator.generate_join (generator : Generator) (first second : String)
    (firstTree secondTree : Module) (firstCode secondCode : String)
    (firstParsed : Module.ofSource first = .ok firstTree)
    (secondParsed : Module.ofSource second = .ok secondTree)
    (firstGenerated : generator.generate firstTree = ⟨firstCode, []⟩)
    (secondGenerated : generator.generate secondTree = ⟨secondCode, []⟩)
    (fits : (first ++ "\n" ++ second).utf8ByteSize ≤ 0xffffffff) :
    ∃ tree, Module.ofSource (first ++ "\n" ++ second) = .ok tree ∧
      generator.generate tree = ⟨firstCode ++ secondCode, []⟩ := by
  obtain ⟨firstLines, firstAll, rfl⟩ := generate_eq_iff.mp firstGenerated
  obtain ⟨secondLines, secondAll, rfl⟩ := generate_eq_iff.mp secondGenerated
  obtain ⟨tree, parsed, same⟩ := Module.ofSource_join fits firstParsed secondParsed
    (isOpaqueFree_of_lines firstAll) (isOpaqueFree_of_lines secondAll)
  refine ⟨tree, parsed, generate_eq_iff.mpr ⟨firstLines ++ secondLines, ?_, ?_⟩⟩
  · rw [map_line?_of_unlocated (Module.mk.inj same), List.map_append, List.map_append, firstAll,
      secondAll]
  · rw [codeOf_append]

/-- A call over two lines with a comment after it, and then two statements in a line. -/
theorem Generator.generate_join_comment :
    let generator : Generator := ⟨.cpp, ⟨true, .collectAll⟩⟩
    let first := "x: int = f(1,\n    2)  # two lines"
    let second := "g(x); h('a' \"b\")"
    ∃ firstTree secondTree tree,
      Module.ofSource first = .ok firstTree ∧ Module.ofSource second = .ok secondTree ∧
      generator.generate firstTree = ⟨"int x = f(1, 2);\n", []⟩ ∧
      generator.generate secondTree = ⟨"g(x);\nh(\"ab\");\n", []⟩ ∧
      Module.ofSource (first ++ "\n" ++ second) = .ok tree ∧
      generator.generate tree = ⟨"int x = f(1, 2);\n" ++ "g(x);\nh(\"ab\");\n", []⟩ := by
  intro generator first second
  obtain ⟨firstTree, firstParsed, firstGenerated⟩ :
      ∃ tree, Module.ofSource first = .ok tree ∧
        generator.generate tree = ⟨"int x = f(1, 2);\n", []⟩ :=
      exists_eq_ok_of_toOption_map (by decide +kernel)
  obtain ⟨secondTree, secondParsed, secondGenerated⟩ :
      ∃ tree, Module.ofSource second = .ok tree ∧
        generator.generate tree = ⟨"g(x);\nh(\"ab\");\n", []⟩ :=
      exists_eq_ok_of_toOption_map (by decide +kernel)
  obtain ⟨tree, parsed, generated⟩ := generate_join generator first second firstTree secondTree _ _
    firstParsed secondParsed firstGenerated secondGenerated (by decide +kernel)
  exact ⟨firstTree, secondTree, tree, firstParsed, secondParsed, firstGenerated, secondGenerated,
    parsed, generated⟩

end Transpiler

import Transpiler.Proofs.Grammar.SpanNesting

/-!
Contract: the brackets under the location of an expression.

Owns: the tokens under the location of an expression stand side by side, and together with
the parentheses of its parts beside them they close every bracket that they open. Brackets are
known to close by their own kind where nothing lies outside the subset: what stands in other
nodes is passed over without a look at the kinds.
-/

namespace Transpiler

open Extent

namespace Extent

/-- The tokens that lie inside a location, marks of lines and blocks aside. -/
def under (tokens : List Token) (span : Span) : List Token :=
  tokens.filter fun token =>
    !token.kind.isLayout && (span.start ≤ token.span.start && token.span.stop ≤ span.stop)

/-- Where a location goes from the first to the last of some tokens, those are the tokens
inside it. -/
private theorem under_eq {before inside after : List Token} {span : Span}
    (orderly : Orderly (before ++ (inside ++ after))) (bounds : Bounds inside span)
    (visible : ∀ token ∈ inside, token.kind.isLayout = false) :
    under (before ++ (inside ++ after)) span = inside := by
  have own := orderly.right.left
  have noneBefore : under before span = [] := by
    refine List.filter_eq_nil_iff.mpr ?_
    intro token member
    obtain ⟨first, isFirst, _, start⟩ := bounds.start
    have earlier := orderly.stop_le member
      (List.mem_append_left after (List.mem_of_mem_head? isFirst))
    have space := orderly.left.visible token member
    simp only [Bool.and_eq_true, Bool.not_eq_true', decide_eq_true_eq]
    rintro ⟨noLayout, starts, _⟩
    have wide := space noLayout
    omega
  have noneAfter : under after span = [] := by
    refine List.filter_eq_nil_iff.mpr ?_
    intro token member
    obtain ⟨last, isLast, stop⟩ := bounds.stop
    have later := orderly.right.stop_le (List.mem_of_getLast? isLast) member
    have space := orderly.right.right.visible token member
    simp only [Bool.and_eq_true, Bool.not_eq_true', decide_eq_true_eq]
    rintro ⟨noLayout, _, stops⟩
    have wide := space noLayout
    omega
  have allInside : under inside span = inside := by
    refine List.filter_eq_self.mpr ?_
    intro token member
    simp [visible token member, bounds.start_le own member, bounds.le_stop own member]
  unfold under at *
  rw [List.filter_append, List.filter_append, noneBefore, noneAfter, allInside]
  simp

/-! ### Tokens of one line -/

/-- Tokens between a token that is no mark and the end of its line are no marks. -/
private theorem visible_of_follows {kinds : List TokenKind} {first : TokenKind}
    (follows : (first :: kinds).IsChain fun previous kind => previous.mayFollow kind = true)
    (visible : first.isLayout = false) (inLine : ∀ kind ∈ kinds, kind ≠ .newline) :
    ∀ kind ∈ first :: kinds, kind.isLayout = false := by
  induction kinds generalizing first with
  | nil => simpa using visible
  | cons next rest inductionHypothesis =>
      obtain ⟨mayFollow, others⟩ := List.isChain_cons_cons.mp follows
      have nextVisible : next.isLayout = false := by
        rcases TokenKind.plain_or_newline_of_mayFollow visible mayFollow with plain | isNewline
        · exact plain
        · exact absurd isNewline (inLine next List.mem_cons_self)
      have restVisible := inductionHypothesis others nextVisible
        fun kind member => inLine kind (List.mem_cons_of_mem next member)
      exact List.forall_mem_cons.mpr ⟨visible, restVisible⟩

private theorem visible_of_tokenize {source : String} {tokens core : List Token}
    (tokenized : tokenize source = .ok tokens) (within : core <:+: tokens)
    (closed : Closed false core)
    (visible : ∃ first, core.head? = some first ∧ first.kind.isLayout = false) :
    ∀ token ∈ core, token.kind.isLayout = false := by
  obtain ⟨added, last, runs, rfl⟩ := Layout.runs_of_tokenize tokenized
  have marked := (Layout.scanned_of_runs List.prefix_rfl runs).finish source.utf8ByteSize
  obtain ⟨first, isFirst, firstVisible⟩ := visible
  obtain ⟨rest, rfl⟩ := List.head?_eq_some_iff.mp isFirst
  have follows := List.IsChain.infix marked.follows.tail (within.map (·.kind))
  have kinds : ∀ kind ∈ first.kind :: rest.map (·.kind), kind.isLayout = false := by
    refine visible_of_follows follows firstVisible ?_
    intro kind member isNewline
    obtain ⟨token, inRest, rfl⟩ := List.mem_map.mp member
    have goesOn := closed.inLine token (List.mem_cons_of_mem first inRest)
    rw [isNewline] at goesOn
    contradiction
  intro token member
  exact kinds token.kind (by simpa using List.mem_map_of_mem (f := (·.kind)) member)

end Extent

/-! ### Brackets -/

/-- The tokens inside the location of a node, between the parentheses of its parts that the
location leaves out. -/
structure Enclosed (tokens : List Token) (node : Expr) (opening closing : List Token) : Prop where
  /-- The tokens stand side by side. -/
  beside : ∃ before after,
    tokens = before ++ (opening ++ (under tokens node.span ++ (closing ++ after)))
  opens : ∀ token ∈ opening, token.kind = .leftParen
  closes : ∀ token ∈ closing, token.kind = .rightParen
  /-- Parentheses are left out only where a part stands first or last. -/
  begins : opening ≠ [] → node.beginsWithPart = true
  ends : closing ≠ [] → node.endsWithPart = true
  /-- All of the tokens close every bracket that they open, and do so by its own kind where
  nothing lies outside the subset. -/
  balanced : ∀ matching : Bool, (matching = true → node.isOpaqueFree = true) →
    Brackets.Balanced matching ((opening ++ (under tokens node.span ++ closing)).map (·.kind))
  /-- The tokens inside the location do so exactly if nothing is left out. -/
  whole : ∀ matching : Bool, (matching = true → node.isOpaqueFree = true) →
    (Brackets.Balanced matching ((under tokens node.span).map (·.kind)) ↔
      opening = [] ∧ closing = [])

/-- The tokens inside the location of an expression stand side by side and, with the
parentheses of its parts that may stand beside them, close every bracket that they open: each by
its own kind, unless a part of the expression lies outside the subset. -/
theorem Module.ofSource_spans_enclose (source : String) (tree : Module)
    (parsed : ofSource source = .ok tree) :
    ∃ tokens, tokenize source = .ok tokens ∧
      ∀ node ∈ tree.nodes, ∃ opening closing, Enclosed tokens node opening closing := by
  obtain ⟨tokens, tokenized, sequence⟩ := sequence_of_ofSource parsed
  have orderly := (stream_of_tokenize tokenized).orderly
  refine ⟨tokens, tokenized, ?_⟩
  intro node member
  obtain ⟨core, within, forms⟩ := sequence.holds member
  have closed {matching : Bool} (free : matching = true → node.isOpaqueFree = true) :
      Closed matching core := forms.closed free
  obtain ⟨opening, inside, closing, frame, cuts⟩ := forms.framed (orderly.of_isInfix within)
  have visible := visible_of_tokenize tokenized within (closed (by simp)) frame.visible
  obtain ⟨before, after, shape⟩ := within
  have sides : tokens = before ++ (opening ++ (inside ++ (closing ++ after))) := by
    rw [← shape, frame.shape]
    simp
  have isInside : under tokens node.span = inside := by
    rw [sides, ← List.append_assoc] at orderly ⊢
    refine under_eq orderly frame.bounds ?_
    intro token member
    exact visible token (frame.inside_isInfix.subset member)
  refine ⟨opening, closing, ⟨before, after, ?_⟩, frame.opens, frame.closes, cuts.begins,
    cuts.ends, ?_, ?_⟩
  · rw [isInside]
    exact sides
  · intro matching free
    rw [isInside, ← frame.shape]
    exact (closed free).balanced
  · intro matching free
    rw [isInside]
    exact frame.balanced_iff (closed free) cuts.closed

/-- A call with an argument in parentheses, and with a subscript in which brackets close by the
wrong kind. -/
theorem Module.ofSource_spans_enclose_call :
    let source := "f((a), x[(]])"
    ∃ tree, ofSource source = .ok tree ∧
      tree.nodes.map (·.span) = [⟨0, 13⟩, ⟨0, 1⟩, ⟨3, 4⟩, ⟨7, 12⟩] ∧
      ∃ tokens, tokenize source = .ok tokens ∧
        ∀ node ∈ tree.nodes, ∃ opening closing, Enclosed tokens node opening closing := by
  intro source
  have read : (ofSource source).toOption.map (fun tree => tree.nodes.map (·.span)) =
      some [⟨0, 13⟩, ⟨0, 1⟩, ⟨3, 4⟩, ⟨7, 12⟩] := by decide +kernel
  obtain ⟨tree, parsed, spans⟩ := exists_eq_ok_of_toOption_map read
  exact ⟨tree, parsed, spans, ofSource_spans_enclose source tree parsed⟩

/-- Brackets inside the location of an expression of the source do not close, or not by their
own kind. -/
def LeavesUnbalanced (source : String) : Prop :=
  ∃ tree tokens, Module.ofSource source = .ok tree ∧ tokenize source = .ok tokens ∧
    ∃ node ∈ tree.nodes, ¬ Brackets.Balanced true ((under tokens node.span).map (·.kind))

instance (source : String) : Decidable (LeavesUnbalanced source) :=
  match parsed : Module.ofSource source, tokenized : tokenize source with
  | .ok tree, .ok tokens =>
      decidable_of_iff
        (∃ node ∈ tree.nodes, ¬ Brackets.Balanced true ((under tokens node.span).map (·.kind)))
        (by simp [LeavesUnbalanced, parsed, tokenized])
  | .error _, _ => isFalse (by simp [LeavesUnbalanced, parsed])
  | .ok _, .error _ => isFalse (by simp [LeavesUnbalanced, tokenized])

/-- The kinds of brackets in a subscript are not looked at, and the location of an operation
begins after the parenthesis before its first operand. -/
theorem Module.ofSource_spans_unbalanced :
    LeavesUnbalanced "x[(]]" ∧ LeavesUnbalanced "(a) + b" := by
  decide +kernel

end Transpiler

import Transpiler.Proofs.Grammar.TreeExtent

/-!
Contract: locations nest as the tree does and follow the order of the source.

Owns: the location of every node begins with a token and ends with one and takes up space,
those of the parts of a node lie inside it one after the other, and those of statements follow
each other.
-/

namespace Transpiler

open Extent

/-- Every expression of a tree, at any depth. -/
def Module.nodes (tree : Module) : List Expr :=
  tree.body.flatMap fun stmt => stmt.children.flatMap Expr.nodes

namespace Extent

/-- The location of every part ends before that of the next one begins. -/
def Apart (parts : List Expr) : Prop :=
  parts.Pairwise fun first second => first.span.stop ≤ second.span.start

/-- The parts lie inside a location, one after the other. -/
structure Nests (outer : Span) (parts : List Expr) : Prop where
  inside : ∀ part ∈ parts, outer.start ≤ part.span.start ∧ part.span.stop ≤ outer.stop
  apart : Apart parts

/-! ### Parts of a node -/

section

variable {tokens : List Token} {exprs : List Expr} {expr node : Expr} {span : Span}

theorem Spread.anchored (spread : Spread tokens exprs) (orderly : Orderly tokens)
    (member : expr ∈ exprs) : Anchored tokens expr.span := by
  apply (spread.holds ?_).anchored orderly
  exact List.mem_flatMap.mpr ⟨expr, member, expr.mem_nodes_self⟩

/-- Locations in two stretches of tokens are apart as the stretches are. -/
theorem Anchored.stop_le {others : List Token} {second : Span}
    (orderly : Orderly (tokens ++ others))
    (isFirst : Anchored tokens span) (isSecond : Anchored others second) :
    span.stop ≤ second.start := by
  obtain ⟨last, inTokens, stop⟩ := isFirst.stop
  obtain ⟨first, inOthers, start⟩ := isSecond.start
  rw [stop, start]
  exact orderly.stop_le inTokens inOthers

theorem Spread.apart : ∀ {tokens : List Token} {exprs : List Expr},
    Spread tokens exprs → Orderly tokens → Apart exprs
  | _, _, .none, _ => .nil
  | _, _, .plain _ rest, orderly => rest.apart orderly.tail
  | _, _, .item first others, orderly => by
      refine List.pairwise_cons.mpr ⟨?_, others.apart orderly.right⟩
      intro later member
      exact Anchored.stop_le orderly (first.anchored orderly.left)
        (others.anchored orderly.right member)
  | _, _, .wrap _ _ inside others, orderly => by
      have within : Orderly _ := orderly.left.tail.left
      refine List.pairwise_append.mpr ⟨inside.apart within, others.apart orderly.right, ?_⟩
      intro earlier isEarlier later isLater
      refine Anchored.stop_le orderly ((inside.anchored within isEarlier).mono ?_)
        (others.anchored orderly.right isLater)
      exact List.subset_cons_of_subset _ (List.subset_append_left _ _)

/-- The parts of a node are spread over a stretch of its tokens. -/
theorem Forms.spread (forms : Forms tokens expr) :
    ∃ inner, inner <:+: tokens ∧ Spread inner expr.children := by
  cases forms with
  | leaf _ _ _ noParts _ => exact ⟨[], List.nil_infix, noParts ▸ .none⟩
  | @list opened closed inner _ _ _ items =>
      exact ⟨inner, ⟨[opened], [closed], by simp⟩, items⟩
  | @tuple opened closed inner _ _ _ items =>
      exact ⟨inner, ⟨[opened], [closed], by simp⟩, items⟩
  | bareTuple head items _ => exact ⟨_, List.infix_rfl, .item head items⟩
  | binary first plain second =>
      exact ⟨_, List.infix_rfl, .item first (.plain plain (.single second))⟩
  | unary plain only => exact ⟨_, List.infix_rfl, .plain plain (.single only)⟩
  | call head opens closes items =>
      exact ⟨_, List.infix_rfl, .item head (items.parens opens closes)⟩
  | member head plainDot plainWord =>
      exact ⟨_, List.infix_rfl, .item head (.plain plainDot (.plain plainWord .none))⟩
  | outside => exact ⟨[], List.nil_infix, .none⟩
  | since => exact ⟨[], List.nil_infix, .none⟩

/-! ### Parts inside a location -/

theorem Bounds.inside (bounds : Bounds tokens span) (orderly : Orderly tokens)
    {part : Span} (anchored : Anchored tokens part) :
    span.start ≤ part.start ∧ part.stop ≤ span.stop := by
  obtain ⟨first, isFirst, start⟩ := anchored.start
  obtain ⟨last, isLast, stop⟩ := anchored.stop
  rw [start, stop]
  exact ⟨bounds.start_le orderly isFirst, bounds.le_stop orderly isLast⟩

/-- A location that begins with that of the first part goes on after the last one. -/
theorem Apart.inside_cover {first : Expr} {others : List Expr} {last : Span}
    (apart : Apart (first :: others)) (forward : first.span.start ≤ first.span.stop)
    (before : ∀ part ∈ first :: others, part.span.stop ≤ last.stop) :
    ∀ part ∈ first :: others, (first.span.cover last).start ≤ part.span.start ∧
      part.span.stop ≤ (first.span.cover last).stop := by
  intro part member
  have start : (first.span.cover last).start ≤ first.span.start := Nat.min_le_left _ _
  have stop : last.stop ≤ (first.span.cover last).stop := Nat.le_max_right _ _
  refine ⟨?_, Nat.le_trans (before part member) stop⟩
  rcases List.mem_cons.mp member with rfl | isOther
  · exact start
  · have later : first.span.stop ≤ part.span.start := (List.pairwise_cons.mp apart).1 part isOther
    omega

/-- The parts of a node lie inside its location, one after the other. -/
theorem Forms.nests (forms : Forms tokens expr) (orderly : Orderly tokens) :
    Nests expr.span expr.children := by
  obtain ⟨inner, within, spread⟩ := forms.spread
  have apart := spread.apart (orderly.of_isInfix within)
  have anchored {part : Expr} (member : part ∈ expr.children) : Anchored tokens part.span :=
    (spread.anchored (orderly.of_isInfix within) member).mono within.subset
  have before {last : Token} (isLast : tokens.getLast? = some last) :
      ∀ part ∈ expr.children, part.span.stop ≤ last.span.stop := by
    intro part member
    obtain ⟨token, inTokens, stop⟩ := (anchored member).stop
    rw [stop]
    exact orderly.le_last isLast inTokens
  refine ⟨?_, apart⟩
  cases forms with
  | leaf _ _ _ noParts _ => simp [noParts]
  | list opens _ _ | tuple opens _ _ =>
      have bounds := Bounds.cover orderly (by rw [opens]; rfl) rfl (getLast?_bracketed [] _ _ _)
      exact fun part member => bounds.inside orderly (anchored member)
  | bareTuple _ _ isLast =>
      exact apart.inside_cover (anchored List.mem_cons_self).forward (before isLast)
  | binary _ _ _ =>
      have second := anchored (List.mem_cons_of_mem _ (List.mem_singleton_self _))
      refine apart.inside_cover (anchored List.mem_cons_self).forward ?_
      refine List.forall_mem_cons.mpr ⟨?_, by simp⟩
      have before := (List.pairwise_cons.mp apart).1 _ (List.mem_singleton_self _)
      exact Nat.le_trans before second.forward
  | unary _ _ =>
      refine List.forall_mem_singleton.mpr ?_
      exact ⟨Nat.min_le_right _ _, Nat.le_max_right _ _⟩
  | call _ _ _ _ =>
      exact apart.inside_cover (anchored List.mem_cons_self).forward
        (before (getLast?_bracketed _ _ _ _))
  | member =>
      exact apart.inside_cover (anchored List.mem_cons_self).forward (before (by simp))
  | outside => simp [Expr.children]
  | since => simp [Expr.children]

/-! ### Statements -/

theorem States.anchored {stmt : Stmt} (states : States tokens stmt) (orderly : Orderly tokens) :
    Anchored tokens stmt.span :=
  states.bounds.anchored orderly

/-- Where a node of a statement comes from. -/
theorem States.holds {stmt : Stmt} (states : States tokens stmt)
    (member : node ∈ stmt.children.flatMap Expr.nodes) : Holds tokens node := by
  apply (states.parts ?_).holds member
  intro noParts
  simp [noParts] at member

theorem States.nests {stmt : Stmt} (states : States tokens stmt) (orderly : Orderly tokens) :
    Nests stmt.span stmt.children := by
  by_cases noParts : stmt.children = []
  · rw [noParts]
    exact ⟨by simp, .nil⟩
  · have spread := states.parts noParts
    refine ⟨?_, spread.apart orderly⟩
    intro part member
    exact states.bounds.inside orderly (spread.anchored orderly member)

/-- Every statement is made of a stretch of the tokens. -/
theorem Sequence.states {stmts : List Stmt} {stmt : Stmt} (sequence : Sequence tokens stmts)
    (member : stmt ∈ stmts) : ∃ own, own <:+: tokens ∧ States own stmt := by
  induction sequence with
  | none => simp at member
  | @more before own rest first others states _ inductionHypothesis =>
      rcases List.mem_cons.mp member with rfl | isOther
      · exact ⟨own, ⟨before, rest, by simp⟩, states⟩
      · obtain ⟨later, within, states⟩ := inductionHypothesis isOther
        refine ⟨later, within.trans ⟨before ++ own, [], by simp⟩, states⟩

theorem Sequence.anchored {stmts : List Stmt} {stmt : Stmt} (sequence : Sequence tokens stmts)
    (orderly : Orderly tokens) (member : stmt ∈ stmts) : Anchored tokens stmt.span := by
  obtain ⟨own, within, states⟩ := sequence.states member
  exact (states.anchored (orderly.of_isInfix within)).mono within.subset

theorem Sequence.apart {stmts : List Stmt} (sequence : Sequence tokens stmts)
    (orderly : Orderly tokens) :
    stmts.Pairwise fun first second => first.span.stop ≤ second.span.start := by
  induction sequence with
  | none => exact .nil
  | more states others inductionHypothesis =>
      have following := orderly.right
      refine List.pairwise_cons.mpr ⟨?_, inductionHypothesis following.right⟩
      intro later member
      exact Anchored.stop_le following (states.anchored following.left)
        (others.anchored following.right member)

theorem Sequence.holds {stmts : List Stmt} (sequence : Sequence tokens stmts)
    (member : node ∈ Module.nodes ⟨stmts⟩) : Holds tokens node := by
  obtain ⟨stmt, isStmt, inStmt⟩ := List.mem_flatMap.mp member
  obtain ⟨own, within, states⟩ := sequence.states isStmt
  exact (states.holds inStmt).mono within

end

end Extent

/-! ### Trees -/

/-- The location of a node of a tree begins with a token, ends with one, takes up space, and
holds the parts of the node one after the other. -/
structure WellLocated (tokens : List Token) (span : Span) (parts : List Expr) : Prop where
  nonempty : span.start < span.stop
  anchored : Anchored tokens span
  nests : Nests span parts

/-- The locations of a tree nest as the tree does and follow the order of the tokens. -/
structure SpansNest (tokens : List Token) (tree : Module) : Prop where
  statements : ∀ stmt ∈ tree.body, WellLocated tokens stmt.span stmt.children
  expressions : ∀ node ∈ tree.nodes, WellLocated tokens node.span node.children
  inOrder : tree.body.Pairwise fun first second => first.span.stop ≤ second.span.start

/-- Locations nest: in the tree of a source, statements and expressions begin and end with
tokens of the source and take up space, the parts of each lie inside it in source order and
apart from each other, and every statement ends before the next one begins. -/
theorem Module.ofSource_spans_nest (source : String) (tree : Module)
    (parsed : ofSource source = .ok tree) :
    ∃ tokens, tokenize source = .ok tokens ∧ SpansNest tokens tree := by
  obtain ⟨tokens, tokenized, sequence⟩ := sequence_of_ofSource parsed
  have orderly := (stream_of_tokenize tokenized).orderly
  refine ⟨tokens, tokenized, ?_, ?_, sequence.apart orderly⟩
  · intro stmt member
    obtain ⟨own, within, states⟩ := sequence.states member
    have ownOrderly := orderly.of_isInfix within
    exact ⟨states.bounds.nonempty ownOrderly, sequence.anchored orderly member,
      states.nests ownOrderly⟩
  · intro node member
    obtain ⟨core, within, forms⟩ := sequence.holds member
    have ownOrderly := orderly.of_isInfix within
    exact ⟨(Occupies.bare forms).nonempty ownOrderly, (sequence.holds member).anchored orderly,
      forms.nests ownOrderly⟩

/-- A declaration whose callee is in parentheses, a list that holds one, and a block. -/
theorem Module.ofSource_spans_nest_lines :
    let source := "x: T = (f)(a, -b); y = [1, (2)]\nif x:\n  pass\n"
    ∃ tree, ofSource source = .ok tree ∧
      tree.body.map (·.span) = [⟨0, 17⟩, ⟨19, 31⟩, ⟨32, 44⟩] ∧
      tree.nodes.map (·.span) = [⟨0, 1⟩, ⟨3, 4⟩, ⟨8, 17⟩, ⟨8, 9⟩, ⟨11, 12⟩, ⟨14, 16⟩, ⟨15, 16⟩,
        ⟨19, 20⟩, ⟨23, 31⟩, ⟨24, 25⟩, ⟨28, 29⟩] ∧
      ∃ tokens, tokenize source = .ok tokens ∧ SpansNest tokens tree := by
  intro source
  have read : (ofSource source).toOption.map
      (fun tree => (tree.body.map (·.span), tree.nodes.map (·.span))) =
      some ([⟨0, 17⟩, ⟨19, 31⟩, ⟨32, 44⟩], [⟨0, 1⟩, ⟨3, 4⟩, ⟨8, 17⟩, ⟨8, 9⟩, ⟨11, 12⟩, ⟨14, 16⟩,
        ⟨15, 16⟩, ⟨19, 20⟩, ⟨23, 31⟩, ⟨24, 25⟩, ⟨28, 29⟩]) := by decide +kernel
  obtain ⟨tree, parsed, spans⟩ := exists_eq_ok_of_toOption_map read
  obtain ⟨statements, expressions⟩ := Prod.mk.inj spans
  exact ⟨tree, parsed, statements, expressions, ofSource_spans_nest source tree parsed⟩

end Transpiler

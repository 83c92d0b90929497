import Transpiler.Proofs.Grammar.Extent

/-!
Contract: where the location of a node begins and ends among its tokens.

Owns: tokens in order, and that the location of a node goes from one of its tokens to another,
with nothing but opening parentheses before and closing ones after it.

Does not own: that the tokens of a source are in order.
-/

namespace Transpiler
namespace Extent

/-! ### Tokens in order -/

/-- Tokens end before the next one starts, and take up space unless they are marks of lines
and blocks. -/
structure Orderly (tokens : List Token) : Prop where
  forward : ∀ token ∈ tokens, token.span.start ≤ token.span.stop
  visible : ∀ token ∈ tokens, token.kind.isLayout = false → token.span.start < token.span.stop
  inOrder : tokens.Pairwise fun first second => first.span.stop ≤ second.span.start

namespace Orderly

variable {tokens others part : List Token} {token first last : Token}

theorem of_isInfix (orderly : Orderly tokens) (within : part <:+: tokens) : Orderly part where
  forward token member := orderly.forward token (within.subset member)
  visible token member := orderly.visible token (within.subset member)
  inOrder := List.Pairwise.sublist within.sublist orderly.inOrder

theorem left (orderly : Orderly (tokens ++ others)) : Orderly tokens :=
  orderly.of_isInfix (List.prefix_append tokens others).isInfix

theorem right (orderly : Orderly (tokens ++ others)) : Orderly others :=
  orderly.of_isInfix (List.suffix_append tokens others).isInfix

theorem tail (orderly : Orderly (token :: tokens)) : Orderly tokens :=
  orderly.of_isInfix (List.suffix_cons token tokens).isInfix

/-- Every token of the first part ends before every token of the second starts. -/
theorem stop_le (orderly : Orderly (tokens ++ others)) (isFirst : first ∈ tokens)
    (isLast : last ∈ others) : first.span.stop ≤ last.span.start :=
  (List.pairwise_append.mp orderly.inOrder).2.2 first isFirst last isLast

theorem head_le (orderly : Orderly tokens) (isFirst : tokens.head? = some first)
    (member : token ∈ tokens) : first.span.start ≤ token.span.start := by
  obtain ⟨rest, rfl⟩ := List.head?_eq_some_iff.mp isFirst
  rcases List.mem_cons.mp member with rfl | inRest
  · exact Nat.le_refl _
  · have forward := orderly.forward first List.mem_cons_self
    have before : first.span.stop ≤ token.span.start :=
      (List.pairwise_cons.mp orderly.inOrder).1 token inRest
    omega

theorem le_last (orderly : Orderly tokens) (isLast : tokens.getLast? = some last)
    (member : token ∈ tokens) : token.span.stop ≤ last.span.stop := by
  obtain ⟨front, rfl⟩ := List.getLast?_eq_some_iff.mp isLast
  rcases List.mem_append.mp member with inFront | isEnd
  · have forward := orderly.forward last (by simp)
    have before := orderly.stop_le inFront (List.mem_singleton_self last)
    omega
  · rw [List.mem_singleton.mp isEnd]

end Orderly

/-! ### Locations among tokens -/

/-- A location from the start of a token to the end of a token. -/
structure Anchored (tokens : List Token) (span : Span) : Prop where
  start : ∃ token ∈ tokens, span.start = token.span.start
  stop : ∃ token ∈ tokens, span.stop = token.span.stop
  forward : span.start ≤ span.stop

theorem Anchored.mono {tokens whole : List Token} {span : Span} (anchored : Anchored tokens span)
    (within : tokens ⊆ whole) : Anchored whole span where
  start := by
    obtain ⟨token, member, same⟩ := anchored.start
    exact ⟨token, within member, same⟩
  stop := by
    obtain ⟨token, member, same⟩ := anchored.stop
    exact ⟨token, within member, same⟩
  forward := anchored.forward

/-- A location from the first to the last of some tokens, the first of which is no mark of
lines or blocks. -/
structure Bounds (tokens : List Token) (span : Span) : Prop where
  start : ∃ first, tokens.head? = some first ∧ first.kind.isLayout = false ∧
    span.start = first.span.start
  stop : ∃ last, tokens.getLast? = some last ∧ span.stop = last.span.stop

namespace Bounds

variable {tokens others : List Token} {span : Span} {first last : Token}

theorem ne_nil (bounds : Bounds tokens span) : tokens ≠ [] := by
  obtain ⟨first, isFirst, _⟩ := bounds.start
  rintro rfl
  simp at isFirst

theorem start_le (bounds : Bounds tokens span) (orderly : Orderly tokens) {token : Token}
    (member : token ∈ tokens) : span.start ≤ token.span.start := by
  obtain ⟨first, isFirst, _, same⟩ := bounds.start
  rw [same]
  exact orderly.head_le isFirst member

theorem le_stop (bounds : Bounds tokens span) (orderly : Orderly tokens) {token : Token}
    (member : token ∈ tokens) : token.span.stop ≤ span.stop := by
  obtain ⟨last, isLast, same⟩ := bounds.stop
  rw [same]
  exact orderly.le_last isLast member

theorem nonempty (bounds : Bounds tokens span) (orderly : Orderly tokens) :
    span.start < span.stop := by
  obtain ⟨first, isFirst, visible, same⟩ := bounds.start
  have member := List.mem_of_mem_head? isFirst
  have space := orderly.visible first member visible
  have within := bounds.le_stop orderly member
  omega

theorem anchored (bounds : Bounds tokens span) (orderly : Orderly tokens) :
    Anchored tokens span where
  start := by
    obtain ⟨first, isFirst, _, same⟩ := bounds.start
    exact ⟨first, List.mem_of_mem_head? isFirst, same⟩
  stop := by
    obtain ⟨last, isLast, same⟩ := bounds.stop
    exact ⟨last, List.mem_of_getLast? isLast, same⟩
  forward := Nat.le_of_lt (bounds.nonempty orderly)

/-- The location that covers the first and the last token. -/
theorem cover (orderly : Orderly tokens) (visible : first.kind.isLayout = false)
    (isFirst : tokens.head? = some first) (isLast : tokens.getLast? = some last) :
    Bounds tokens (first.span.cover last.span) where
  start := by
    refine ⟨first, isFirst, visible, ?_⟩
    exact Nat.min_eq_left (orderly.head_le isFirst (List.mem_of_getLast? isLast))
  stop := by
    refine ⟨last, isLast, ?_⟩
    exact Nat.max_eq_right (orderly.le_last isLast (List.mem_of_mem_head? isFirst))

end Bounds

/-! ### Parentheses around a location -/

/-- The tokens of a node: opening parentheses, those under its location, and closing
parentheses. -/
structure Frame (tokens opening inside closing : List Token) (span : Span) : Prop where
  shape : tokens = opening ++ (inside ++ closing)
  opens : ∀ token ∈ opening, token.kind = .leftParen
  closes : ∀ token ∈ closing, token.kind = .rightParen
  bounds : Bounds inside span

namespace Frame

variable {tokens opening inside closing rest : List Token} {span : Span}
  {first last sign opened closed : Token}

theorem whole (bounds : Bounds tokens span) : Frame tokens [] tokens [] span where
  shape := by simp
  opens := by simp
  closes := by simp
  bounds := bounds

theorem inside_isInfix (frame : Frame tokens opening inside closing span) : inside <:+: tokens := by
  rw [frame.shape]
  exact ⟨opening, closing, by simp⟩

/-- What stands first is a parenthesis, or begins the location. -/
theorem visible (frame : Frame tokens opening inside closing span) :
    ∃ first, tokens.head? = some first ∧ first.kind.isLayout = false := by
  rw [frame.shape]
  cases opening with
  | nil =>
      obtain ⟨first, isFirst, visible, _⟩ := frame.bounds.start
      exact ⟨first, by simp [isFirst], visible⟩
  | cons first rest =>
      refine ⟨first, rfl, ?_⟩
      rw [frame.opens first List.mem_cons_self]
      rfl

theorem group (opens : opened.kind = .leftParen) (closes : closed.kind = .rightParen)
    (frame : Frame tokens opening inside closing span) :
    Frame (opened :: (tokens ++ [closed])) (opened :: opening) inside (closing ++ [closed])
      span where
  shape := by simp [frame.shape]
  opens := by simpa [opens] using frame.opens
  closes := by
    intro token member
    rcases List.mem_append.mp member with inClosing | isClosed
    · exact frame.closes token inClosing
    · rw [List.mem_singleton.mp isClosed, closes]
  bounds := frame.bounds

/-- A location that goes on to the last of the tokens after it. -/
theorem extend (frame : Frame tokens opening inside closing span)
    (orderly : Orderly (tokens ++ rest)) (isLast : (tokens ++ rest).getLast? = some last) :
    Frame (tokens ++ rest) opening (inside ++ (closing ++ rest)) [] (span.cover last.span) := by
  have shape : tokens ++ rest = opening ++ (inside ++ (closing ++ rest)) := by
    rw [frame.shape]
    simp
  have nonempty := frame.bounds.ne_nil
  rw [shape] at orderly isLast
  rw [List.getLast?_append_of_ne_nil _ (by simp [nonempty])] at isLast
  obtain ⟨first, isFirst, visible, start⟩ := frame.bounds.start
  obtain ⟨old, isOld, stop⟩ := frame.bounds.stop
  have isFirst : (inside ++ (closing ++ rest)).head? = some first := by
    rw [List.head?_append_of_ne_nil _ nonempty, isFirst]
  refine ⟨by simpa using shape, frame.opens, by simp, ⟨first, isFirst, visible, ?_⟩,
    ⟨last, isLast, ?_⟩⟩
  · have before := orderly.right.head_le isFirst (List.mem_of_getLast? isLast)
    exact (Nat.min_eq_left (start ▸ before)).trans start
  · have isEarlier : old ∈ inside ++ (closing ++ rest) :=
      List.mem_append_left _ (List.mem_of_getLast? isOld)
    have before := orderly.right.le_last isLast isEarlier
    exact Nat.max_eq_right (stop ▸ before)

/-- A location that begins with a token before it. -/
theorem precede (frame : Frame tokens opening inside closing span)
    (orderly : Orderly (sign :: tokens)) (visible : sign.kind.isLayout = false) :
    Frame (sign :: tokens) [] (sign :: (opening ++ inside)) closing (sign.span.cover span) := by
  have shape : sign :: tokens = sign :: (opening ++ inside) ++ closing := by simp [frame.shape]
  rw [shape] at orderly
  obtain ⟨first, isFirst, _, start⟩ := frame.bounds.start
  obtain ⟨last, isLast, stop⟩ := frame.bounds.stop
  have isLast : (sign :: (opening ++ inside)).getLast? = some last := by
    rw [← List.cons_append, List.getLast?_append_of_ne_nil _ frame.bounds.ne_nil, isLast]
  refine ⟨by simpa using shape, by simp, frame.closes, ⟨sign, rfl, visible, ?_⟩,
    ⟨last, isLast, ?_⟩⟩
  · have isLater : first ∈ sign :: (opening ++ inside) := by
      simp [List.mem_of_mem_head? isFirst]
    have before := orderly.left.head_le rfl isLater
    exact Nat.min_eq_left (start ▸ before)
  · have before := orderly.left.le_last isLast List.mem_cons_self
    exact (Nat.max_eq_right (stop ▸ before)).trans stop

/-- Two locations with a token between them. -/
theorem merge {others otherOpening otherInside otherClosing : List Token} {otherSpan : Span}
    (frame : Frame tokens opening inside closing span)
    (other : Frame others otherOpening otherInside otherClosing otherSpan)
    (orderly : Orderly (tokens ++ sign :: others)) :
    Frame (tokens ++ sign :: others) opening
      (inside ++ (closing ++ sign :: (otherOpening ++ otherInside))) otherClosing
      (span.cover otherSpan) := by
  obtain ⟨first, isFirst, visible, start⟩ := frame.bounds.start
  obtain ⟨old, isOld, stop⟩ := frame.bounds.stop
  obtain ⟨otherFirst, isOtherFirst, _, otherStart⟩ := other.bounds.start
  obtain ⟨last, isLast, otherStop⟩ := other.bounds.stop
  have forward := orderly.forward
  have inOther {token : Token} (member : token ∈ otherInside) : token ∈ others :=
    other.inside_isInfix.subset member
  have inThis {token : Token} (member : token ∈ inside) : token ∈ tokens :=
    frame.inside_isInfix.subset member
  refine ⟨by simp [frame.shape, other.shape], frame.opens, other.closes,
    ⟨first, ?_, visible, ?_⟩, ⟨last, ?_, ?_⟩⟩
  · rw [List.head?_append_of_ne_nil _ frame.bounds.ne_nil, isFirst]
  · have before := orderly.stop_le (inThis (List.mem_of_mem_head? isFirst))
      (List.mem_cons_of_mem sign (inOther (List.mem_of_mem_head? isOtherFirst)))
    have space := forward first (by simp [inThis (List.mem_of_mem_head? isFirst)])
    refine (Nat.min_eq_left ?_).trans start
    omega
  · rw [← List.append_assoc, ← List.cons_append, ← List.append_assoc,
      List.getLast?_append_of_ne_nil _ other.bounds.ne_nil, isLast]
  · have before := orderly.stop_le (inThis (List.mem_of_getLast? isOld))
      (List.mem_cons_of_mem sign (inOther (List.mem_of_getLast? isLast)))
    have space := forward last (by simp [inOther (List.mem_of_getLast? isLast)])
    refine (Nat.max_eq_right ?_).trans otherStop
    omega

end Frame

/-! ### The location of a node -/

/-- The tokens close a bracket that they do not open. -/
def ClosesTooMany (tokens : List Token) : Prop :=
  ∃ front, front <+: tokens ∧
    (front.map (·.kind)).countP (·.opensBracket) < (front.map (·.kind)).countP (·.closesBracket)

theorem ClosesTooMany.not_balanced {tokens : List Token} (tooMany : ClosesTooMany tokens)
    (matching : Bool) : ¬ Brackets.Balanced matching (tokens.map (·.kind)) := by
  intro balanced
  obtain ⟨front, isFront, more⟩ := tooMany
  have fewer := balanced.countP_le (isFront.map _)
  omega

private theorem countP_of_opening {opening : List Token}
    (opens : ∀ token ∈ opening, token.kind = .leftParen) :
    (opening.map (·.kind)).countP (·.opensBracket) = opening.length ∧
      (opening.map (·.kind)).countP (·.closesBracket) = 0 := by
  have kinds : opening.map (·.kind) = List.replicate opening.length .leftParen := by
    rw [List.eq_replicate_iff]
    simpa using opens
  simp [kinds, List.countP_replicate, TokenKind.opensBracket, TokenKind.closesBracket]

private theorem countP_of_closing {closing : List Token}
    (closes : ∀ token ∈ closing, token.kind = .rightParen) :
    (closing.map (·.kind)).countP (·.opensBracket) = 0 ∧
      (closing.map (·.kind)).countP (·.closesBracket) = closing.length := by
  have kinds : closing.map (·.kind) = List.replicate closing.length .rightParen := by
    rw [List.eq_replicate_iff]
    simpa using closes
  simp [kinds, List.countP_replicate, TokenKind.opensBracket, TokenKind.closesBracket]

namespace Frame

variable {tokens opening inside closing rest : List Token} {span : Span}

/-- What follows opening parentheses that are cut off closes them. -/
theorem closesTooMany (frame : Frame tokens opening inside closing span)
    (closed : Closed false tokens) (cut : opening ≠ []) :
    ClosesTooMany (inside ++ (closing ++ rest)) := by
  refine ⟨inside ++ closing, ⟨rest, by simp⟩, ?_⟩
  have counted := closed.balanced.countP_eq
  rw [frame.shape, List.map_append, List.countP_append, List.countP_append,
    (countP_of_opening frame.opens).1, (countP_of_opening frame.opens).2] at counted
  have some := List.length_pos_iff.mpr cut
  omega

/-- The tokens under a location are balanced exactly if no parenthesis of the node is cut
off. -/
theorem balanced_iff {matching : Bool} (frame : Frame tokens opening inside closing span)
    (closed : Closed matching tokens) (cut : opening ≠ [] → ClosesTooMany inside) :
    Brackets.Balanced matching (inside.map (·.kind)) ↔ opening = [] ∧ closing = [] := by
  constructor
  · intro balanced
    have uncut : opening = [] := by
      by_contra isCut
      exact (cut isCut).not_balanced matching balanced
    have counted := closed.balanced.countP_eq
    rw [frame.shape, uncut, List.nil_append, List.map_append, List.countP_append,
      List.countP_append, (countP_of_closing frame.closes).1, (countP_of_closing frame.closes).2,
      balanced.countP_eq] at counted
    exact ⟨uncut, List.length_eq_zero_iff.mp (by omega)⟩
  · rintro ⟨rfl, rfl⟩
    have shape := frame.shape
    simp only [List.nil_append, List.append_nil] at shape
    rw [← shape]
    exact closed.balanced

end Frame

end Extent

namespace Expr

/-- Whether a node begins with one of its parts. -/
def beginsWithPart : Expr → Bool
  | .binary .. | .call .. | .member .. | .tuple .. | .unsupported .. => true
  | .unary .. | .constant .. | .name .. | .list .. => false

/-- Whether a node ends with one of its parts. -/
def endsWithPart : Expr → Bool
  | .binary .. | .unary .. => true
  | .call .. | .member .. | .tuple .. | .unsupported .. => false
  | .constant .. | .name .. | .list .. => false

end Expr

namespace Extent

/-- What it takes for the location of a node to cut off parentheses of its parts: it begins
or ends with a part, and what it leaves closes the opening ones. -/
structure CutsOff (expr : Expr) (opening inside closing : List Token) : Prop where
  closed : opening ≠ [] → ClosesTooMany inside
  begins : opening ≠ [] → expr.beginsWithPart = true
  ends : closing ≠ [] → expr.endsWithPart = true

theorem CutsOff.none (expr : Expr) (inside : List Token) : CutsOff expr [] inside [] where
  closed := absurd rfl
  begins := absurd rfl
  ends := absurd rfl

/-- The tokens of a node, with the parentheses of its parts that its location cuts off. -/
def Framed (tokens : List Token) (expr : Expr) : Prop :=
  ∃ opening inside closing, Frame tokens opening inside closing expr.span ∧
    CutsOff expr opening inside closing

theorem Framed.whole {tokens : List Token} {expr : Expr} (bounds : Bounds tokens expr.span) :
    Framed tokens expr :=
  ⟨[], tokens, [], .whole bounds, .none expr tokens⟩

/-- A node that begins with a part and goes on to a token. -/
theorem Framed.extend {tokens rest opening inside closing : List Token} {span : Span}
    {last : Token} {expr : Expr} (frame : Frame tokens opening inside closing span)
    (closed : Closed false tokens) (orderly : Orderly (tokens ++ rest))
    (isLast : (tokens ++ rest).getLast? = some last) (located : expr.span = span.cover last.span)
    (begins : expr.beginsWithPart = true) : Framed (tokens ++ rest) expr := by
  refine ⟨opening, inside ++ (closing ++ rest), [], ?_, frame.closesTooMany closed,
    fun _ => begins, absurd rfl⟩
  rw [located]
  exact frame.extend orderly isLast

theorem getLast?_bracketed (before inner : List Token) (opened closed : Token) :
    (before ++ opened :: (inner ++ [closed])).getLast? = some closed := by
  rw [← List.cons_append, ← List.append_assoc]
  exact List.getLast?_concat

mutual

theorem Forms.framed {tokens : List Token} {expr : Expr} :
    Forms tokens expr → Orderly tokens → Framed tokens expr
  | .leaf plain isFirst isLast _ located, orderly => by
      have isPlain := plain _ (List.mem_of_mem_head? isFirst)
      simp only [TokenKind.isPlain, Bool.and_eq_true, Bool.not_eq_true'] at isPlain
      apply Framed.whole
      rw [located]
      exact .cover orderly isPlain.2 isFirst isLast
  | .list opens _ _, orderly =>
      .whole (.cover orderly (by rw [opens]; rfl) rfl (getLast?_bracketed [] _ _ _))
  | .tuple opens _ _, orderly =>
      .whole (.cover orderly (by rw [opens]; rfl) rfl (getLast?_bracketed [] _ _ _))
  | .bareTuple head _ isLast, orderly => by
      obtain ⟨opening, inside, closing, frame⟩ := head.framed orderly.left
      exact .extend frame (head.closed (by simp)) orderly isLast rfl rfl
  | .binary first _ second, orderly => by
      obtain ⟨opening, inside, closing, frame⟩ := first.framed orderly.left
      obtain ⟨_, _, _, other⟩ := second.framed orderly.right.tail
      exact ⟨_, _, _, frame.merge other orderly, frame.closesTooMany (first.closed (by simp)),
        fun _ => rfl, fun _ => rfl⟩
  | .unary plain only, orderly => by
      obtain ⟨opening, inside, closing, frame⟩ := only.framed orderly.tail
      simp only [TokenKind.isPlain, Bool.and_eq_true, Bool.not_eq_true'] at plain
      exact ⟨_, _, _, frame.precede orderly plain.2, absurd rfl, absurd rfl, fun _ => rfl⟩
  | .call head _ _ _, orderly => by
      obtain ⟨opening, inside, closing, frame⟩ := head.framed orderly.left
      exact .extend frame (head.closed (by simp)) orderly (getLast?_bracketed _ _ _ _) rfl rfl
  | .member head _ _, orderly => by
      obtain ⟨opening, inside, closing, frame⟩ := head.framed orderly.left
      exact .extend frame (head.closed (by simp)) orderly (by simp) rfl rfl
  | .outside visible isFirst isLast _, orderly => .whole (.cover orderly visible isFirst isLast)
  | .since head _ isLast, orderly => by
      obtain ⟨opening, inside, closing, frame⟩ := head.framed orderly.left
      exact .extend frame (head.closed (by simp)) orderly isLast rfl rfl

theorem Occupies.framed {tokens : List Token} {expr : Expr} :
    Occupies tokens expr → Orderly tokens →
      ∃ opening inside closing, Frame tokens opening inside closing expr.span
  | .bare forms, orderly => by
      obtain ⟨opening, inside, closing, frame, _⟩ := forms.framed orderly
      exact ⟨opening, inside, closing, frame⟩
  | .group opens closes inside, orderly => by
      obtain ⟨_, _, _, frame⟩ := inside.framed (orderly.tail.left)
      exact ⟨_, _, _, frame.group opens closes⟩

end

/-- The location of a node goes from one of its tokens to another. -/
theorem Occupies.anchored {tokens : List Token} {expr : Expr} (occupies : Occupies tokens expr)
    (orderly : Orderly tokens) : Anchored tokens expr.span := by
  obtain ⟨opening, inside, closing, frame⟩ := occupies.framed orderly
  have within := frame.inside_isInfix
  exact (frame.bounds.anchored (orderly.of_isInfix within)).mono within.subset

theorem Occupies.nonempty {tokens : List Token} {expr : Expr} (occupies : Occupies tokens expr)
    (orderly : Orderly tokens) : expr.span.start < expr.span.stop := by
  obtain ⟨opening, inside, closing, frame⟩ := occupies.framed orderly
  exact frame.bounds.nonempty (orderly.of_isInfix frame.inside_isInfix)

/-- The location of a node that is read from a stretch of tokens goes from one token to
another. -/
theorem Holds.anchored {tokens : List Token} {node : Expr} (holds : Holds tokens node)
    (orderly : Orderly tokens) : Anchored tokens node.span := by
  obtain ⟨core, within, forms⟩ := holds
  exact ((Occupies.bare forms).anchored (orderly.of_isInfix within)).mono within.subset

end Extent
end Transpiler

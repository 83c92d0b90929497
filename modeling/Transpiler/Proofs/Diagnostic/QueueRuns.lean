import Transpiler.Diagnostic.Queue

/-!
Contract: what a diagnostic queue holds after any run of additions and flushes.

Owns: the fate of every diagnostic added since the last flush, the counters against what
is kept, and what a flush yields. The counters are compared with the diagnostics
themselves, so the laws hold whatever was added and whenever the queue was flushed.

Does not own: how diagnostics are rendered.
-/

namespace Transpiler

/-- Where the first primary label of a diagnostic begins. -/
def Diagnostic.primaryStart? (diagnostic : Diagnostic) : Option Nat :=
  diagnostic.primarySpan?.map (·.start)

/-- As many errors are kept as the limit allows. -/
def QueueConfig.Full (config : QueueConfig) (kept : List Diagnostic) : Prop :=
  0 < config.errorLimit ∧ config.errorLimit ≤ kept.countP (·.isError)

namespace DiagnosticQueue

/-! ### Runs -/

/-- What can be done with a queue. -/
inductive Action where
  | add (diagnostic : Diagnostic)
  | flush
deriving DecidableEq, Repr

/-- The queue after an action. -/
def perform (queue : DiagnosticQueue) : Action → DiagnosticQueue
  | .add diagnostic => (queue.add diagnostic).2
  | .flush => queue.flush.2

/-- The queue after actions, one after the other. -/
def performAll (queue : DiagnosticQueue) (actions : List Action) : DiagnosticQueue :=
  actions.foldl perform queue

/-- The diagnostics added since the last flush, after one more action. -/
def pendingAfter (pending : List Diagnostic) : Action → List Diagnostic
  | .add diagnostic => pending ++ [diagnostic]
  | .flush => []

/-- The diagnostics that actions added since the last flush among them. -/
def addedSinceFlush (actions : List Action) : List Diagnostic :=
  actions.foldl pendingAfter []

/-! ### The fate of a diagnostic -/

/-- What became of a diagnostic that was added. -/
inductive Fate where
  | kept
  /-- It was dropped as equal to a kept one. -/
  | repeated
  /-- It was dropped because of the limit, and counted. -/
  | overflowed
deriving DecidableEq, Repr

structure Entry where
  diagnostic : Diagnostic
  fate : Fate
deriving DecidableEq, Repr

/-- The diagnostics that were kept, in the order in which they were added. -/
def keptOf (entries : List Entry) : List Diagnostic :=
  (entries.filter (·.fate == .kept)).map (·.diagnostic)

/-- The number of diagnostics that had a fate. -/
def countOf (fate : Fate) (entries : List Entry) : Nat :=
  entries.countP (·.fate == fate)

/-- Entries in which every fate is the one that the diagnostics kept before demand. -/
inductive Ledger (config : QueueConfig) : List Entry → Prop where
  | empty : Ledger config []
  | kept {entries : List Entry} {diagnostic : Diagnostic} (earlier : Ledger config entries)
      (fresh : config.deduplicate = true → diagnostic ∉ keptOf entries)
      (room : diagnostic.isError = true → ¬ config.Full (keptOf entries)) :
      Ledger config (entries ++ [⟨diagnostic, .kept⟩])
  | repeated {entries : List Entry} {diagnostic : Diagnostic} (earlier : Ledger config entries)
      (drops : config.deduplicate = true) (isKept : diagnostic ∈ keptOf entries) :
      Ledger config (entries ++ [⟨diagnostic, .repeated⟩])
  | overflowed {entries : List Entry} {diagnostic : Diagnostic} (earlier : Ledger config entries)
      (fresh : config.deduplicate = true → diagnostic ∉ keptOf entries)
      (isError : diagnostic.isError = true) (full : config.Full (keptOf entries)) :
      Ledger config (entries ++ [⟨diagnostic, .overflowed⟩])

section

variable {config : QueueConfig} {entries : List Entry} {diagnostic : Diagnostic}

@[simp] theorem keptOf_kept :
    keptOf (entries ++ [⟨diagnostic, .kept⟩]) = keptOf entries ++ [diagnostic] := by
  simp [keptOf]

@[simp] theorem keptOf_repeated :
    keptOf (entries ++ [⟨diagnostic, .repeated⟩]) = keptOf entries := by
  simp [keptOf]

@[simp] theorem keptOf_overflowed :
    keptOf (entries ++ [⟨diagnostic, .overflowed⟩]) = keptOf entries := by
  simp [keptOf]

private theorem countOf_append (fate : Fate) (first second : List Entry) :
    countOf fate (first ++ second) = countOf fate first + countOf fate second :=
  List.countP_append

/-- Every entry has one of the three fates. -/
private theorem length_keptOf_add (entries : List Entry) :
    (keptOf entries).length + countOf .repeated entries + countOf .overflowed entries =
      entries.length := by
  induction entries with
  | nil => rfl
  | cons entry rest inductionHypothesis =>
      obtain ⟨diagnostic, fate⟩ := entry
      simp only [keptOf, countOf, List.length_map] at inductionHypothesis ⊢
      cases fate <;> simp <;> omega

/-- With deduplication, no two kept diagnostics are equal. -/
theorem Ledger.nodup (ledger : Ledger config entries) (drops : config.deduplicate = true) :
    (keptOf entries).Nodup := by
  induction ledger with
  | empty => exact .nil
  | kept _ fresh _ inductionHypothesis =>
      rw [keptOf_kept]
      apply List.nodup_append.mpr
      refine ⟨inductionHypothesis, by simp, ?_⟩
      intro earlier isEarlier later isLater same
      apply fresh drops
      rwa [← List.mem_singleton.mp isLater, ← same]
  | repeated _ _ _ inductionHypothesis => rwa [keptOf_repeated]
  | overflowed _ _ _ _ inductionHypothesis => rwa [keptOf_overflowed]

/-- The errors that are kept stay within the limit. -/
theorem Ledger.limited (ledger : Ledger config entries) (limited : 0 < config.errorLimit) :
    (keptOf entries).countP (·.isError) ≤ config.errorLimit := by
  induction ledger with
  | empty => exact Nat.zero_le _
  | @kept entries diagnostic _ _ room inductionHypothesis =>
      rw [keptOf_kept, List.countP_append, List.countP_singleton]
      by_cases isError : diagnostic.isError = true
      · have below : ¬ config.errorLimit ≤ (keptOf entries).countP (·.isError) := by
          intro reached
          exact room isError ⟨limited, reached⟩
        rw [if_pos isError]
        omega
      · rw [if_neg isError]
        exact inductionHypothesis
  | repeated _ _ _ inductionHypothesis => rwa [keptOf_repeated]
  | overflowed _ _ _ _ inductionHypothesis => rwa [keptOf_overflowed]

end

/-! ### One action -/

/-- All that adding a diagnostic can do. The counters grow by the number of errors, or of
others, among the diagnostics that are kept from now on. -/
inductive Adds (queue : DiagnosticQueue) (diagnostic : Diagnostic) :
    Bool × DiagnosticQueue → Prop where
  | repeated (drops : queue.config.deduplicate = true) (isKept : diagnostic ∈ queue.kept) :
      Adds queue diagnostic (false, queue)
  | overflowed (fresh : queue.config.deduplicate = true → diagnostic ∉ queue.kept)
      (isError : diagnostic.isError = true) (full : queue.limitReached = true) :
      Adds queue diagnostic (false, { queue with overflow := queue.overflow + 1 })
  | kept (fresh : queue.config.deduplicate = true → diagnostic ∉ queue.kept)
      (room : diagnostic.isError = true → queue.limitReached = false) :
      Adds queue diagnostic (true, { queue with
        kept := queue.kept ++ [diagnostic]
        errorCount := queue.errorCount + [diagnostic].countP (·.isError)
        warningCount := queue.warningCount + [diagnostic].countP (!·.isError) })

theorem adds_add (queue : DiagnosticQueue) (diagnostic : Diagnostic) :
    queue.Adds diagnostic (queue.add diagnostic) := by
  unfold add
  by_cases isRepeated : (queue.config.deduplicate && queue.kept.contains diagnostic) = true
  · rw [if_pos isRepeated]
    rw [Bool.and_eq_true, List.contains_iff_mem] at isRepeated
    exact .repeated isRepeated.1 isRepeated.2
  · rw [if_neg isRepeated]
    rw [Bool.and_eq_true, List.contains_iff_mem, not_and] at isRepeated
    by_cases isError : diagnostic.isError = true
    · rw [if_pos isError]
      by_cases full : queue.limitReached = true
      · rw [if_pos full]
        exact .overflowed isRepeated isError full
      · rw [if_neg full]
        have added := Adds.kept isRepeated fun _ => Bool.eq_false_iff.mpr full
        simpa [isError] using added
    · rw [if_neg isError]
      have added := Adds.kept isRepeated fun error => absurd error isError
      simpa [isError] using added

/-- The queue agrees with the entries of the diagnostics added to it. -/
structure Accounts (config : QueueConfig) (added : List Diagnostic) (queue : DiagnosticQueue)
    (entries : List Entry) : Prop where
  ledger : Ledger config entries
  added_eq : entries.map (·.diagnostic) = added
  config_eq : queue.config = config
  kept_eq : queue.kept = keptOf entries
  errors_eq : queue.errorCount = queue.kept.countP (·.isError)
  warnings_eq : queue.warningCount = queue.kept.countP (!·.isError)
  overflow_eq : queue.overflow = countOf .overflowed entries

namespace Accounts

variable {config : QueueConfig} {added : List Diagnostic} {queue : DiagnosticQueue}
  {entries : List Entry}

theorem initial (config : QueueConfig) : Accounts config [] (new config) [] :=
  ⟨.empty, rfl, rfl, rfl, rfl, rfl, rfl⟩

theorem limitReached_iff (accounts : Accounts config added queue entries) :
    queue.limitReached = true ↔ config.Full (keptOf entries) := by
  rw [limitReached, Bool.and_eq_true, decide_eq_true_eq, decide_eq_true_eq, accounts.config_eq,
    accounts.errors_eq, accounts.kept_eq]
  exact Iff.rfl

/-- An added diagnostic has its fate, and the queue changes accordingly. -/
theorem add (accounts : Accounts config added queue entries) (diagnostic : Diagnostic) :
    ∃ fate, Accounts config (added ++ [diagnostic]) (queue.add diagnostic).2
      (entries ++ [⟨diagnostic, fate⟩]) := by
  have added_eq (fate : Fate) :
      (entries ++ [Entry.mk diagnostic fate]).map (·.diagnostic) = added ++ [diagnostic] := by
    rw [List.map_append, accounts.added_eq]
    rfl
  have adds := queue.adds_add diagnostic
  generalize queue.add diagnostic = outcome at adds
  cases adds with
  | repeated drops isKept =>
      rw [accounts.config_eq] at drops
      rw [accounts.kept_eq] at isKept
      refine ⟨.repeated, .repeated accounts.ledger drops isKept, added_eq _, accounts.config_eq,
        ?_, accounts.errors_eq, accounts.warnings_eq, ?_⟩
      · rw [keptOf_repeated, accounts.kept_eq]
      · rw [countOf_append, accounts.overflow_eq]
        rfl
  | overflowed fresh isError full =>
      rw [accounts.config_eq, accounts.kept_eq] at fresh
      rw [accounts.limitReached_iff] at full
      refine ⟨.overflowed, .overflowed accounts.ledger fresh isError full, added_eq _,
        accounts.config_eq, ?_, accounts.errors_eq, accounts.warnings_eq, ?_⟩
      · rw [keptOf_overflowed, accounts.kept_eq]
      · rw [countOf_append, ← accounts.overflow_eq]
        rfl
  | kept fresh room =>
      rw [accounts.config_eq, accounts.kept_eq] at fresh
      simp only [← Bool.not_eq_true, accounts.limitReached_iff] at room
      refine ⟨.kept, .kept accounts.ledger fresh room, added_eq _, accounts.config_eq, ?_, ?_, ?_,
        ?_⟩
      · rw [keptOf_kept, accounts.kept_eq]
      · rw [List.countP_append, accounts.errors_eq]
      · rw [List.countP_append, accounts.warnings_eq]
      · rw [countOf_append, accounts.overflow_eq]
        rfl

/-- A flushed queue is as new. -/
theorem flush (accounts : Accounts config added queue entries) :
    Accounts config [] queue.flush.2 [] := by
  show Accounts config [] (new queue.config) []
  rw [accounts.config_eq]
  exact initial config

theorem perform (accounts : Accounts config added queue entries) (action : Action) :
    ∃ entries, Accounts config (pendingAfter added action) (queue.perform action) entries := by
  cases action with
  | add diagnostic =>
      obtain ⟨fate, next⟩ := accounts.add diagnostic
      exact ⟨_, next⟩
  | flush => exact ⟨[], accounts.flush⟩

/-- What one action keeps, a run keeps. -/
theorem performAll (accounts : Accounts config added queue entries) (actions : List Action) :
    ∃ entries,
      Accounts config (actions.foldl pendingAfter added) (queue.performAll actions) entries := by
  induction actions generalizing added queue entries with
  | nil => exact ⟨entries, accounts⟩
  | cons action rest inductionHypothesis =>
      obtain ⟨_, next⟩ := accounts.perform action
      exact inductionHypothesis next

end Accounts

/-! ### Source order -/

/-- The shown diagnostics are the kept ones, ordered by where their first primary label begins.
Those without one come first, and those at the same place keep their order. -/
structure InOrder (kept shown : List Diagnostic) : Prop where
  permuted : shown.Perm kept
  sorted : shown.Pairwise fun first second => first.primaryStart? ≤ second.primaryStart?
  stable : ∀ place : Option Nat,
    shown.filter (·.primaryStart? == place) = kept.filter (·.primaryStart? == place)

theorem sortKey_le_iff {first second : Diagnostic} :
    sortKey first ≤ sortKey second ↔ first.primaryStart? ≤ second.primaryStart? := by
  unfold sortKey Diagnostic.primaryStart?
  cases first.primarySpan? with
  | none => simp
  | some span =>
      cases second.primarySpan? with
      | none => simp
      | some other => simp

private theorem sortKey_total (first second : Diagnostic) :
    (decide (sortKey first ≤ sortKey second) ||
      decide (sortKey second ≤ sortKey first)) = true := by
  have total := Nat.le_total (sortKey first) (sortKey second)
  simpa using total

private theorem sortKey_trans (first second third : Diagnostic)
    (firstLe : decide (sortKey first ≤ sortKey second) = true)
    (secondLe : decide (sortKey second ≤ sortKey third) = true) :
    decide (sortKey first ≤ sortKey third) = true := by
  simp only [decide_eq_true_eq] at firstLe secondLe ⊢
  exact Nat.le_trans firstLe secondLe

private theorem inOrder_inSourceOrder (kept : List Diagnostic) :
    InOrder kept (inSourceOrder kept) where
  permuted := List.mergeSort_perm kept _
  sorted := by
    apply (List.pairwise_mergeSort sortKey_trans sortKey_total kept).imp
    intro first second ordered
    exact sortKey_le_iff.mp (of_decide_eq_true ordered)
  stable := by
    intro place
    let here (diagnostic : Diagnostic) : Bool := diagnostic.primaryStart? == place
    -- Those at one place are in order already, so sorting leaves them as a sublist.
    have ordered : (kept.filter here).Pairwise fun first second =>
        decide (sortKey first ≤ sortKey second) = true := by
      apply List.pairwise_of_forall_mem_list
      intro first isFirst second isSecond
      have firstPlace : first.primaryStart? = place := eq_of_beq (List.mem_filter.mp isFirst).2
      have secondPlace : second.primaryStart? = place := eq_of_beq (List.mem_filter.mp isSecond).2
      have same : sortKey first = sortKey second := by
        apply Nat.le_antisymm
        · rw [sortKey_le_iff, firstPlace, secondPlace]
          cases place <;> simp
        · rw [sortKey_le_iff, firstPlace, secondPlace]
          cases place <;> simp
      simp [same]
    have sublist : (kept.filter here).Sublist (inSourceOrder kept) :=
      List.sublist_mergeSort sortKey_trans sortKey_total ordered List.filter_sublist
    have among : (kept.filter here).Sublist ((inSourceOrder kept).filter here) := by
      have filtered := sublist.filter here
      simpa [List.filter_filter] using filtered
    have sameLength : (kept.filter here).length = ((inSourceOrder kept).filter here).length :=
      ((List.mergeSort_perm kept _).filter here).length_eq.symm
    exact (among.eq_of_length sameLength).symm

/-! ### Whole runs -/

/-- What holds of a queue after any run: its counters are those of what it keeps, the limit
and the deduplication are respected, every diagnostic added since the last flush has its
fate, and a flush shows what is kept and leaves a new queue. -/
structure Consistent (config : QueueConfig) (added : List Diagnostic)
    (queue : DiagnosticQueue) : Prop where
  errors : queue.errorCount = queue.kept.countP (·.isError)
  warnings : queue.warningCount = queue.kept.countP (!·.isError)
  limited : 0 < config.errorLimit → queue.errorCount ≤ config.errorLimit
  distinct : config.deduplicate = true → queue.kept.Nodup
  fates : ∃ entries, Ledger config entries ∧ entries.map (·.diagnostic) = added ∧
    keptOf entries = queue.kept ∧ countOf .overflowed entries = queue.overflow ∧
    queue.kept.length + countOf .repeated entries + queue.overflow = added.length
  flushed : ∃ shown, InOrder queue.kept shown ∧
    queue.flush.1 = shown ++
      (if 0 < queue.overflow then
        [⟨.tooManyErrors, .warning,
          toString queue.overflow ++ " more error" ++ (if queue.overflow = 1 then "" else "s") ++
            " not shown", [], []⟩]
      else []) ∧
    queue.flush.2 = new config

theorem overflowWarning_eq (overflow : Nat) :
    overflowWarning overflow =
      ⟨.tooManyErrors, .warning,
        toString overflow ++ " more error" ++ (if overflow = 1 then "" else "s") ++ " not shown",
        [], []⟩ := by
  have noun : toString overflow ++ " " ++ "more error" = toString overflow ++ " more error" := by
    rw [String.append_assoc]
    rfl
  rw [overflowWarning, Diagnostic.warning, counted, noun]

theorem Accounts.consistent {config : QueueConfig} {added : List Diagnostic}
    {queue : DiagnosticQueue} {entries : List Entry}
    (accounts : Accounts config added queue entries) : Consistent config added queue where
  errors := accounts.errors_eq
  warnings := accounts.warnings_eq
  limited := by
    intro limited
    rw [accounts.errors_eq, accounts.kept_eq]
    exact accounts.ledger.limited limited
  distinct := by
    intro drops
    rw [accounts.kept_eq]
    exact accounts.ledger.nodup drops
  fates := by
    refine ⟨entries, accounts.ledger, accounts.added_eq, accounts.kept_eq.symm,
      accounts.overflow_eq.symm, ?_⟩
    rw [accounts.kept_eq, accounts.overflow_eq, length_keptOf_add, ← accounts.added_eq,
      List.length_map]
  flushed := by
    refine ⟨inSourceOrder queue.kept, inOrder_inSourceOrder queue.kept, ?_, ?_⟩
    · rw [← overflowWarning_eq]
      rfl
    · rw [← accounts.config_eq]
      rfl

/-- Queues over whole runs: whatever is added to a new queue, and however often it is flushed
in between, its counters, its limit, its deduplication and its overflow agree with the
diagnostics added since the last flush, and a flush shows the kept ones in source order. -/
theorem performAll_consistent (config : QueueConfig) (actions : List Action) :
    Consistent config (addedSinceFlush actions) ((new config).performAll actions) := by
  obtain ⟨entries, accounts⟩ := (Accounts.initial config).performAll actions
  exact accounts.consistent

end DiagnosticQueue
end Transpiler

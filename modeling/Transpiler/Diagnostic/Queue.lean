import Transpiler.Diagnostic.Render

/-!
Contract: collecting diagnostics before they are shown.

A queue may drop repeated diagnostics and stop keeping errors past a limit; the errors
that it did not keep are counted. Flushing yields the kept diagnostics in source order
and leaves the queue as new.
-/

namespace Transpiler

structure QueueConfig where
  /-- The most errors that are kept; zero is no limit. -/
  errorLimit : Nat
  /-- Whether a diagnostic equal to a kept one is dropped. -/
  deduplicate : Bool
deriving DecidableEq, Repr

namespace QueueConfig

def standard : QueueConfig := ⟨20, true⟩

def unlimited : QueueConfig := ⟨0, false⟩

end QueueConfig

structure DiagnosticQueue where
  config : QueueConfig
  /-- The kept diagnostics, in the order in which they were added. -/
  kept : List Diagnostic
  errorCount : Nat
  warningCount : Nat
  /-- The number of errors that were not kept because the limit was reached. -/
  overflow : Nat
deriving DecidableEq, Repr

namespace DiagnosticQueue

def new (config : QueueConfig) : DiagnosticQueue :=
  ⟨config, [], 0, 0, 0⟩

def isEmpty (queue : DiagnosticQueue) : Bool :=
  queue.kept.isEmpty

def hasErrors (queue : DiagnosticQueue) : Bool :=
  0 < queue.errorCount

def limitReached (queue : DiagnosticQueue) : Bool :=
  0 < queue.config.errorLimit && queue.config.errorLimit ≤ queue.errorCount

/-- Adds a diagnostic and tells whether it was kept. -/
def add (queue : DiagnosticQueue) (diagnostic : Diagnostic) : Bool × DiagnosticQueue :=
  if queue.config.deduplicate && queue.kept.contains diagnostic then (false, queue)
  else if diagnostic.isError then
    if queue.limitReached then (false, { queue with overflow := queue.overflow + 1 })
    else
      (true, { queue with
        kept := queue.kept ++ [diagnostic]
        errorCount := queue.errorCount + 1 })
  else
    (true, { queue with
      kept := queue.kept ++ [diagnostic]
      warningCount := queue.warningCount + 1 })

def addAll (queue : DiagnosticQueue) (diagnostics : List Diagnostic) : DiagnosticQueue :=
  diagnostics.foldl (fun queue diagnostic => (queue.add diagnostic).2) queue

/-- The place of a diagnostic in source order: one without a primary label comes first. -/
def sortKey (diagnostic : Diagnostic) : Nat :=
  (diagnostic.primarySpan?.map (·.start + 1)).getD 0

/-- The diagnostics in source order; those at the same place keep their order. -/
def inSourceOrder (diagnostics : List Diagnostic) : List Diagnostic :=
  diagnostics.mergeSort fun first second => sortKey first ≤ sortKey second

/-- The warning about errors that were not kept. -/
def overflowWarning (overflow : Nat) : Diagnostic :=
  .warning .tooManyErrors (counted overflow "more error" ++ " not shown")

/-- The kept diagnostics in source order, with a final warning if errors were not kept,
and the emptied queue. -/
def flush (queue : DiagnosticQueue) : List Diagnostic × DiagnosticQueue :=
  let extra := if 0 < queue.overflow then [overflowWarning queue.overflow] else []
  (inSourceOrder queue.kept ++ extra, new queue.config)

end DiagnosticQueue

/-- A report of diagnostics: its text, and the number of errors that it shows. -/
structure Report where
  text : String
  errorCount : Nat
deriving DecidableEq, Repr

/-- Reports diagnostics through a queue with the standard limits, and sums them up if
there are several errors. -/
def Terminal.report (terminal : Terminal) (diagnostics : List Diagnostic) : Report :=
  let queue := (DiagnosticQueue.new .standard).addAll diagnostics
  let shown := terminal.renderAll queue.flush.1
  let summary :=
    if 1 < queue.errorCount then terminal.summary queue.errorCount queue.warningCount else ""
  ⟨shown ++ summary, queue.errorCount⟩

end Transpiler

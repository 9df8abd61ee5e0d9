import SqlScript.Build.Options
import SqlScript.Build.Pending
import SqlScript.Variable.Table

/-!
# Drafts of scripts

A draft is a script in the making: the batches closed so far, the pending one, and what the commands
executed so far decided about the batches to come.
-/

namespace SqlScript

/-- A script in the making. -/
structure Draft where
  bindings : Variable.Table
  pending : Pending := {}
  batches : Array Batch := #[]
  /-- What a failing batch does if it is closed here. -/
  errorAction : ErrorAction
  connectTarget : Option String := none
  /-- Messages that wait for the next batch that is not blank. -/
  preamble : List String := []
  outputTargets : OutputTargets := {}

namespace Draft

/-- The draft before the first token. -/
def start (options : BuildOptions) (bindings : Variable.Table) : Draft where
  bindings := bindings
  errorAction := options.defaultErrorAction

/-- The draft with the pending batch closed, at `separator` if there is one.  A blank batch keeps
its place but takes no messages. -/
def close (draft : Draft) (repeatCount : Nat) (separator : Option Position) : Draft :=
  let opened := { draft with pending := { onSeparatorLine := separator.isSome } }
  match draft.pending.region? separator with
  | none => opened
  | some region =>
      let batch : Batch :=
        { index := draft.batches.size
          text := draft.pending.text
          start := region.start
          stop := region.stop
          repeatCount
          errorAction := draft.errorAction
          connectTarget := draft.connectTarget
          preamble := []
          lineMap := draft.pending.lineMapTo region.stop }
      if batch.isBlank then { opened with batches := draft.batches.push batch }
      else
        { opened with
          batches := draft.batches.push { batch with preamble := draft.preamble }
          preamble := [] }

/-- The draft with a message for the next batch. -/
def announce (draft : Draft) (message : String) : Draft :=
  { draft with preamble := draft.preamble ++ [message] }

/-- The script of the batches closed so far, without blank ones at its end. -/
def finish (draft : Draft) : Script where
  batches := draft.batches.popWhile Batch.isBlank
  trailingMessages := draft.preamble
  outputTargets := draft.outputTargets

end Draft
end SqlScript

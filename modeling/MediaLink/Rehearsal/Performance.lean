import MediaLink.Rehearsal.Stage
import MediaLink.Session.Record

/-! A whole rehearsal: line after line, with a report on each. -/
namespace MediaLink.Rehearsal

/-- What a line led to, what happened meanwhile, and where the session stands. -/
structure Report where
  outcome : Outcome
  log : List Entry
  /-- None once nobody holds the session. -/
  phase : Option Phase
  records : List Record

structure Script where
  setup : Setup
  silent : Bool := false
  lines : List Line

structure Performance where
  opening : Report
  reports : List Report
  closing : Report

namespace Stage

/-- Plays any line. -/
def perform (s : Stage) : Line → Stage × Outcome
  | .dispatch => (s.settleAll.waitForBarrier, .nothing)
  | .idle => (s.settleAll.settleLookups.waitForBarrier, .nothing)
  | line => s.play line

/-- Reports on what has been taken down and remarked since an earlier stage. -/
def report (before after : Stage) (outcome : Outcome) : Report where
  outcome
  log := (after.log.take (after.log.length - before.log.length)).reverse
  phase := if after.world.handles = 0 then none else some after.world.session.phase
  records :=
    ((after.world.remarks.take (after.world.remarks.length - before.world.remarks.length)).map
      (·.record after.world.setting)).reverse

/-- Plays lines, with a report on each. -/
def performAll (s : Stage) : List Line → Stage × List Report
  | [] => (s, [])
  | line :: lines =>
    let (next, outcome) := s.perform line
    let (last, reports) := next.performAll lines
    (last, report s next outcome :: reports)

/-- Gives up every handle, and lets the loop run for the last time. -/
def close (s : Stage) : Stage :=
  ((List.range s.world.handles).foldl (fun s _ => s.advance (·.dropHandle s.transport)) s).settleAll

end Stage

namespace Script

def perform (script : Script) : Except Fault Performance :=
  (script.setup.build).map fun setting =>
    let world := World.create setting
    let opening : Stage := { world, silent := script.silent }
    let blank : Stage := { opening with world := { world with remarks := [] } }
    let (last, reports) := opening.performAll script.lines
    let closed := last.close
    ⟨Stage.report blank opening .nothing, reports, Stage.report last closed .nothing⟩

end Script
end MediaLink.Rehearsal

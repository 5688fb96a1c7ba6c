import StoreSync.Command.Error
import StoreSync.Pass.Report
import StoreSync.Time

/-!
# Summaries of passes

Every pass that was run is told in a line, or in a data value, and all together decide the exit
status.
-/

namespace StoreSync

namespace PassReport

/-- A report on one line. -/
def summary (r : PassReport) : String :=
  r.task ++ " " ++ r.kind.name ++ " " ++ r.status.name ++ ": seen=" ++ toString r.counters.seen ++
    " attempted=" ++ toString r.counters.attempted ++ " applied=" ++ toString r.counters.applied ++
    " errored=" ++ toString r.counters.errored ++ " (" ++ toString r.duration ++ "ms)" ++
    match r.error with
    | some e => " - " ++ e
    | none => ""

end PassReport

/-- A pass that was run for the command. -/
structure PassRun where
  /-- The name of the run, which no other run has. -/
  name : String
  started : Instant
  report : PassReport
deriving DecidableEq

/-- The report with all that is known of the run. -/
def PassRun.toJson (r : PassRun) : Json :=
  match r.report.toJson with
  | .members fields =>
    .object (("run_id", .string r.name) :: ("started_at", .string r.started.dateTime) ::
      ("duration_ms", .ofNat r.report.duration) :: fields)
  | j => j

/-- How a command ends that ran its passes. -/
def ExitStatus.ofReports (reports : List PassReport) : ExitStatus :=
  if reports.any (·.status = .failed) then .failed
  else if reports.all (·.isSuccess) then .success
  else .partly

end StoreSync

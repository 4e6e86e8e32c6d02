set_option autoImplicit false

/-! # Metrics

What the service counts, and the page on which it shows the counts. The metrics are a log of events,
the last one first; every counter is the number of its events in the log. Stages of signing are
timed; the page shows for each how many timings there were and how they spread over buckets.
-/

namespace BlindSign

/-- The stages of signing that are timed. -/
inductive Stage
  | authentication
  | quotaResolution
  | signature
  | persistence
  deriving Repr, DecidableEq

/-- Something that is counted. -/
inductive Metric
  /-- A submission arrived. -/
  | submission
  /-- A request names no session. -/
  | missingSession
  /-- A submission was answered with a status. -/
  | response (status : Nat)
  /-- The quota or the height could not be read. -/
  | chainError
  /-- A request was on record already. -/
  | duplicate
  /-- A stage was passed or left. -/
  | stage (s : Stage)
  deriving Repr, DecidableEq

/-- The name under which the timings of a stage are shown. -/
def Stage.series : Stage → String
  | .authentication => "signer_authentication_seconds"
  | .quotaResolution => "signer_quota_resolution_seconds"
  | .signature => "signer_signature_seconds"
  | .persistence => "signer_persistence_seconds"

def Stage.help : Stage → String
  | .authentication => "Time spent authenticating the caller"
  | .quotaResolution => "Time spent reading quota and chain height"
  | .signature => "Time spent computing the partial signature"
  | .persistence => "Time spent storing the request and incrementing the count"

/-- The name and label of the counter of answers with a status. -/
def responseSeries (status : Nat) : String :=
  "signer_responses_total\x7bstatus=\"" ++ toString status ++ "\"\x7d"

/-- The name of the counter that an event moves. -/
def Metric.series : Metric → String
  | .submission => "signer_requests_total"
  | .missingSession => "signer_missing_session_id_total"
  | .response status => responseSeries status
  | .chainError => "signer_blockchain_errors_total"
  | .duplicate => "signer_duplicate_requests_total"
  | .stage s => s.series ++ "_count"

/-- A log of events, the last one first. -/
abbrev Metrics := List Metric

namespace Metrics

/-- The counters that the events of a log move, each with the number of its events. -/
def totals (log : Metrics) : List (String × Nat) :=
  -- each counter once, under the event that moves it
  log.eraseDups.map fun m => (m.series, log.count m)

/-! ## The page -/

inductive Line
  /-- A remark on the lines that follow. -/
  | remark (text : String)
  /-- A number under its name. -/
  | sample (series : String) (value : Nat)
  deriving Repr, DecidableEq

def Line.text : Line → String
  | .remark text => "# " ++ text
  | .sample series value => series ++ " " ++ toString value

/-- The part of a line that does not depend on what was counted. -/
def Line.outline : Line → String
  | .remark text => "# " ++ text
  | .sample series _ => series

/-- The remarks in front of a family of samples. -/
def remarks (name help kind : String) : List Line :=
  [.remark ("HELP " ++ name ++ " " ++ help), .remark ("TYPE " ++ name ++ " " ++ kind)]

def counterLines (log : Metrics) (m : Metric) (help : String) : List Line :=
  remarks m.series help "counter" ++ [.sample m.series (log.count m)]

/-- The upper ends of the buckets in seconds. -/
def bucketEnds : List String :=
  ["0.001", "0.0025", "0.005", "0.01", "0.025", "0.05", "0.1", "0.25", "0.5", "1", "2.5", "5",
    "+Inf"]

/-- The lines of a timed stage. The log keeps no durations, so all timings fall into the first
bucket and add up to nothing. -/
def stageLines (log : Metrics) (s : Stage) : List Line :=
  let n := log.count (.stage s)
  remarks s.series s.help "histogram" ++
    bucketEnds.map (fun e => .sample (s.series ++ "_bucket\x7ble=\"" ++ e ++ "\"\x7d") n) ++
    [.sample (s.series ++ "_sum") 0, .sample (s.series ++ "_count") n]

/-- The statuses with which submissions were answered, in ascending order. -/
def statuses (log : Metrics) : List Nat :=
  (log.filterMap fun
    | .response status => some status
    | _ => none).eraseDups.mergeSort

/-- The lines of the answers by status, if there were any. -/
def responseLines (log : Metrics) : List Line :=
  match log.statuses with
  | [] => []
  | statuses =>
    remarks "signer_responses_total" "Sign responses by status code" "counter" ++
      statuses.map fun status => .sample (responseSeries status) (log.count (.response status))

/-- The lines of the page, families in the order of their names. -/
def lines (log : Metrics) : List Line :=
  log.stageLines .authentication ++
  log.counterLines .chainError "Quota or chain-height reads that failed" ++
  log.counterLines .duplicate "Sign requests whose fingerprint was already stored" ++
  log.counterLines .missingSession "Sign requests submitted without a session id" ++
  log.stageLines .persistence ++
  log.stageLines .quotaResolution ++
  log.counterLines .submission "Sign requests received" ++
  log.responseLines ++
  log.stageLines .signature

def page (log : Metrics) : String :=
  log.lines.foldl (fun text line => text ++ line.text ++ "\n") ""

/-- The names and remarks on the page, sorted and each once. -/
def outline (log : Metrics) : List String :=
  (log.lines.map Line.outline).eraseDups.mergeSort fun a b => !(decide (b < a))

end Metrics

end BlindSign

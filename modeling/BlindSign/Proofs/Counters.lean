import BlindSign.Metrics

set_option autoImplicit false

/-! # Counters on the page

The page of metrics shows numbers under names. A counter is read back from it by its name; one that
the page does not show, such as that of a status with which nothing was answered, stands at zero.

**The page shows for each counter how often its event was noted** (`Metrics.shown_series`). For this
the names must tell the counters apart, from one another and from the samples of the timed stages.
-/

namespace BlindSign

/-- Whether an event is counted for itself. The others are the timings of stages. -/
def Metric.isCounter : Metric → Bool
  | .stage _ => false
  | _ => true

namespace Metrics

/-- The value that a line shows under a name. -/
def Line.valueOf? (series : String) : Line → Option Nat
  | .remark _ => none
  | .sample name value => if name = series then some value else none

/-- The name under which a line shows a value. -/
def Line.name? : Line → Option String
  | .remark _ => none
  | .sample name _ => some name

def valueIn? (series : String) (ls : List Line) : Option Nat := ls.findSome? (Line.valueOf? series)

/-- The value that the page shows under a name, zero if it shows none. -/
def shown (log : Metrics) (series : String) : Nat := (valueIn? series log.lines).getD 0

variable {log : Metrics} {series : String}

/-! ## Sections of the page -/

theorem valueIn?_append (series : String) (ls ls' : List Line) :
    valueIn? series (ls ++ ls') = (valueIn? series ls).or (valueIn? series ls') :=
  List.findSome?_append

/-- Lines show nothing under a name that is not among theirs. -/
theorem valueIn?_eq_none {ls : List Line} (h : series ∉ ls.filterMap Line.name?) :
    valueIn? series ls = none := by
  refine List.findSome?_eq_none_iff.2 fun line hline => ?_
  cases line with
  | remark text => rfl
  | sample name value =>
      have hne : name ≠ series := by
        rintro rfl
        exact h (List.mem_filterMap.2 ⟨_, hline, rfl⟩)
      exact if_neg hne

theorem valueIn?_counterLines (m : Metric) (help : String) :
    valueIn? series (log.counterLines m help) =
      if m.series = series then some (log.count m) else none := by
  by_cases h : m.series = series
  · simp [valueIn?, counterLines, remarks, List.findSome?_cons, Line.valueOf?, h]
  · simp [valueIn?, counterLines, remarks, List.findSome?_cons, Line.valueOf?, h]

/-- The names of the samples of a timed stage. They do not depend on what was noted. -/
def stageNames (s : Stage) : List String :=
  bucketEnds.map (fun e => s.series ++ "_bucket\x7ble=\"" ++ e ++ "\"\x7d") ++
    [s.series ++ "_sum", s.series ++ "_count"]

theorem names_stageLines (s : Stage) :
    (log.stageLines s).filterMap Line.name? = stageNames s := by
  simp [stageLines, remarks, stageNames, List.filterMap_cons, Line.name?, Function.comp_def]

theorem valueIn?_stageLines {s : Stage} (h : series ∉ stageNames s) :
    valueIn? series (log.stageLines s) = none := by
  refine valueIn?_eq_none ?_
  rw [names_stageLines]
  exact h

/-! ## Answers by status -/

theorem responseSeries_inj {status status' : Nat} :
    responseSeries status = responseSeries status' ↔ status = status' := by
  constructor
  · intro h
    unfold responseSeries at h
    rw [String.append_left_inj, String.append_right_inj] at h
    have hdigits : Nat.toDigits 10 status = Nat.toDigits 10 status' := by
      rw [← Nat.toList_repr, ← Nat.toList_repr]
      exact congrArg String.toList h
    calc status = Nat.ofDigitChars 10 (Nat.toDigits 10 status) 0 :=
          Nat.ofDigitChars_ten_toDigits.symm
      _ = Nat.ofDigitChars 10 (Nat.toDigits 10 status') 0 := by rw [hdigits]
      _ = status' := Nat.ofDigitChars_ten_toDigits
  · rintro rfl
    rfl

/-- The name starts as those of the answers by status do. -/
def isResponseSeries (series : String) : Bool :=
  "signer_responses_total\x7b".toList.isPrefixOf series.toList

theorem isResponseSeries_responseSeries (status : Nat) :
    isResponseSeries (responseSeries status) = true := by
  refine List.isPrefixOf_iff_prefix.2 ⟨("status=\"" ++ toString status ++ "\"\x7d").toList, ?_⟩
  rw [← String.toList_append]
  congr 1

theorem mem_statuses {status : Nat} : status ∈ log.statuses ↔ .response status ∈ log := by
  unfold statuses
  rw [List.mem_mergeSort, List.mem_eraseDups, List.mem_filterMap]
  constructor
  · rintro ⟨event, hevent, hstatus⟩
    cases event with
    | response status' =>
        obtain rfl := Option.some.inj hstatus
        exact hevent
    | submission => cases hstatus
    | missingSession => cases hstatus
    | chainError => cases hstatus
    | duplicate => cases hstatus
    | stage s => cases hstatus
  · intro h
    exact ⟨_, h, rfl⟩

/-- Among samples of statuses each status shows its own. -/
theorem valueIn?_samples (status : Nat) (statuses : List Nat) (value : Nat → Nat) :
    valueIn? (responseSeries status)
        (statuses.map fun status => .sample (responseSeries status) (value status)) =
      if status ∈ statuses then some (value status) else none := by
  induction statuses with
  | nil => rfl
  | cons first rest ih =>
      rw [List.map_cons, valueIn?, List.findSome?_cons, Line.valueOf?]
      by_cases h : first = status
      · simp [h]
      · rw [if_neg (fun hs => h (responseSeries_inj.1 hs))]
        have hmem : status ∈ first :: rest ↔ status ∈ rest := by
          simp [List.mem_cons, Ne.symm h]
        simp only [hmem]
        exact ih

theorem responseLines_eq (log : Metrics) : log.responseLines = [] ∨
    log.responseLines =
      remarks "signer_responses_total" "Sign responses by status code" "counter" ++
        log.statuses.map fun status =>
          .sample (responseSeries status) (log.count (.response status)) := by
  unfold responseLines
  cases log.statuses with
  | nil => exact .inl rfl
  | cons first rest => exact .inr rfl

/-- The page shows the answers with a status just if there were any. -/
theorem valueIn?_responseLines (log : Metrics) (status : Nat) :
    valueIn? (responseSeries status) log.responseLines =
      if status ∈ log.statuses then some (log.count (.response status)) else none := by
  rcases responseLines_eq log with h | h
  · have hnone : log.statuses = [] := by
      cases hs : log.statuses with
      | nil => rfl
      | cons first rest =>
          unfold responseLines at h
          rw [hs] at h
          cases h
    rw [h, hnone]
    rfl
  · rw [h, valueIn?_append]
    exact valueIn?_samples status log.statuses fun status => log.count (.response status)

theorem valueIn?_responseLines_eq_none (h : isResponseSeries series = false) :
    valueIn? series log.responseLines = none := by
  refine valueIn?_eq_none ?_
  rcases responseLines_eq log with hlines | hlines
  · rw [hlines]
    exact List.not_mem_nil
  · rw [hlines, List.filterMap_append, List.filterMap_map, List.mem_append]
    rintro (hmem | hmem)
    · cases hmem
    · obtain ⟨status, _, hname⟩ := List.mem_filterMap.1 hmem
      obtain rfl := Option.some.inj hname
      rw [isResponseSeries_responseSeries] at h
      cases h

/-! ## The whole page -/

/-- The letter of a name after what all names have in common. -/
def initial? (name : String) : Option Char := name.toList[7]?

theorem initial?_append {front : String} (h : 7 < front.toList.length) (back : String) :
    initial? (front ++ back) = initial? front := by
  unfold initial?
  rw [String.toList_append, List.getElem?_append_left h]

theorem initial?_of_mem_stageNames {name : String} {s : Stage} (h : name ∈ stageNames s) :
    initial? name = initial? s.series := by
  have hlength : 7 < s.series.toList.length := by cases s <;> decide
  unfold stageNames at h
  rw [List.mem_append, List.mem_map] at h
  rcases h with ⟨e, _, rfl⟩ | h
  · rw [String.append_assoc, String.append_assoc]
    exact initial?_append hlength _
  · simp only [List.mem_cons, List.not_mem_nil, or_false] at h
    rcases h with rfl | rfl <;> exact initial?_append hlength _

/-- No counter begins as a timed stage does. -/
theorem initial?_series_ne {m : Metric} (h : m.isCounter) (s : Stage) :
    initial? m.series ≠ initial? s.series := by
  cases m with
  | stage _ => cases h
  -- the status stands behind the eighth character, so it does not matter
  | response status =>
      have hresponse : initial? (responseSeries status) =
          initial? "signer_responses_total\x7bstatus=\"" := by
        unfold responseSeries
        rw [String.append_assoc, initial?_append (by decide)]
      rw [Metric.series, hresponse]
      cases s <;> decide
  | submission | missingSession | chainError | duplicate => cases s <;> decide

/-- The names of timed stages are no counter's. -/
theorem series_notMem_stageNames {m : Metric} (h : m.isCounter) (s : Stage) :
    m.series ∉ stageNames s := fun hmem =>
  initial?_series_ne h s (initial?_of_mem_stageNames hmem)

/-- The value that the page shows for a counter. -/
theorem valueIn?_lines {m : Metric} (h : m.isCounter) (log : Metrics) :
    valueIn? m.series log.lines =
      ((((valueIn? m.series (log.counterLines .chainError "")).or
        (valueIn? m.series (log.counterLines .duplicate ""))).or
        (valueIn? m.series (log.counterLines .missingSession ""))).or
        (valueIn? m.series (log.counterLines .submission ""))).or
        (valueIn? m.series log.responseLines) := by
  -- the timed stages between the counters show none of them
  unfold lines
  simp only [valueIn?_append, valueIn?_stageLines (series_notMem_stageNames h _),
    valueIn?_counterLines, Option.none_or, Option.or_none]

/-- No answer has the name of another counter. -/
theorem responseSeries_ne (status : Nat) (m : Metric) (h : isResponseSeries m.series = false) :
    m.series ≠ responseSeries status := by
  intro hseries
  rw [hseries, isResponseSeries_responseSeries] at h
  cases h

/-- The page shows a status with the number of its answers, or not at all if there were none. -/
theorem valueIn?_responseSeries (log : Metrics) (status : Nat) :
    valueIn? (responseSeries status) log.lines =
      if status ∈ log.statuses then some (log.count (.response status)) else none := by
  have hne : ∀ m ∈ [Metric.chainError, .duplicate, .missingSession, .submission],
      m.series ≠ responseSeries status := by
    intro m hm
    refine responseSeries_ne status m ?_
    revert m
    decide +kernel
  simp only [List.forall_mem_cons] at hne
  obtain ⟨hchain, hduplicate, hsession, hsubmission, -⟩ := hne
  have hlines := valueIn?_lines (m := .response status) rfl log
  rw [Metric.series] at hlines
  rw [hlines, valueIn?_responseLines]
  simp only [valueIn?_counterLines, if_neg hchain, if_neg hduplicate, if_neg hsession,
    if_neg hsubmission, Option.none_or]

/-- **The page shows for each counter how often its event was noted.** -/
theorem shown_series {m : Metric} (h : m.isCounter) (log : Metrics) :
    log.shown m.series = log.count m := by
  unfold shown
  cases m with
  | stage s => cases h
  | response status =>
      rw [Metric.series, valueIn?_responseSeries]
      by_cases hstatus : status ∈ log.statuses
      · rw [if_pos hstatus]
        rfl
      · -- a status that the page does not show was never answered with
        have hcount : log.count (.response status) = 0 :=
          List.count_eq_zero.2 fun hmem => hstatus (mem_statuses.2 hmem)
        rw [if_neg hstatus, hcount]
        rfl
  | submission =>
      rw [valueIn?_lines h, valueIn?_responseLines_eq_none (by decide +kernel)]
      simp [valueIn?_counterLines, Metric.series]
  | missingSession =>
      rw [valueIn?_lines h, valueIn?_responseLines_eq_none (by decide +kernel)]
      simp [valueIn?_counterLines, Metric.series]
  | chainError =>
      rw [valueIn?_lines h, valueIn?_responseLines_eq_none (by decide +kernel)]
      simp [valueIn?_counterLines, Metric.series]
  | duplicate =>
      rw [valueIn?_lines h, valueIn?_responseLines_eq_none (by decide +kernel)]
      simp [valueIn?_counterLines, Metric.series]

end Metrics

end BlindSign

import QuantDataCenter.Lib.Dict
import QuantDataCenter.Lib.Gregorian
import QuantDataCenter.Orchestrator.Workflow
import QuantDataCenter.Sources.CalendarCoverage

/-!
The mode of the Baostock market session. The scheduler decides it from the effective dates; the
command decides it again from the options that the workflow renders the dates into. Whether the
market date was given by the operator is not among them.
-/

set_option autoImplicit false
set_option relaxedAutoImplicit false

namespace QuantDataCenter.Orchestrator

open QuantDataCenter.Lib QuantDataCenter.Lib.Gregorian
open QuantDataCenter.Tabular (Frame Pandas StoreError nsPerDay)

/-! Commands of the workflow -/

def workflowContext (python : String) (dates : DailyEffectiveDates) : Dict String String :=
  [("python", python), ("today", isoDay dates.naturalDate),
    ("natural_date", isoDay dates.naturalDate), ("candidate_date", isoDay dates.candidateDate),
    ("market_date", isoDay dates.marketDate), ("hist_start", isoDay dates.histStart)]

/-- `str.format` from inside a field, whose name is given backwards, or from outside of one. Fields
are plain names. -/
def formatFrom (context : Dict String String) :
    Option (List Char) → List Char → Option (List Char)
  | none, [] => some []
  | some _, [] => none
  | none, '{' :: '{' :: rest => (formatFrom context none rest).map ('{' :: ·)
  | none, '}' :: '}' :: rest => (formatFrom context none rest).map ('}' :: ·)
  | none, '{' :: rest => formatFrom context (some []) rest
  | none, '}' :: _ => none
  | none, c :: rest => (formatFrom context none rest).map (c :: ·)
  | some name, '}' :: rest =>
    (Dict.get (String.ofList name.reverse) context).bind fun value =>
      (formatFrom context none rest).map (value.toList ++ ·)
  | some name, c :: rest => formatFrom context (some (c :: name)) rest

/-- `_render_text`. -/
def renderText (value : String) (context : Dict String String) : Option String :=
  (formatFrom context none value.toList).map String.ofList

def cli (python : String) : List String := [python, "-m", "src.cli"]

/-- `_render_command`. -/
def renderCommand (python : String) (context : Dict String String) (command : List String) :
    Option (List String) := do
  let items ← command.mapM fun item =>
    if item = "{qdc}" then some (cli python) else (renderText item context).map fun text => [text]
  if items.flatten = [] then none else some items.flatten

/-- The command of the step in `daily_workflow.yaml`. -/
def baostockMarketSessionCommand : List String :=
  ["{qdc}", "update-baostock-market-session", "--end", "{market_date}", "--natural-date",
    "{natural_date}", "--candidate-date", "{candidate_date}", "--market-date", "{market_date}",
    "--no-build-duckdb-views"]

def baostockMarketSession (python : String) : RawStep where
  id := "baostock-market-session"
  command dates :=
    (renderCommand python (workflowContext python dates) baostockMarketSessionCommand).getD []
  dependsOn := [⟨"baostock-basic", some .marketDate, false⟩]
  stateKeyPolicy := .marketDate
  resumePolicy := .alwaysRun

/-! The command `update-baostock-market-session` -/

structure MarketSessionOptions where
  endDate : Option String := none
  naturalDate : Option String := none
  candidateDate : Option String := none
  marketDate : Option String := none
  marketDateOverridden : Bool := false
  code : List String := []
  lookbackDays : Option String := none
  provider : Option String := none
  resume : Bool := true
  force : Bool := false
  buildViews : Bool := false
  deriving DecidableEq

def flagOption (name : String) (options : MarketSessionOptions) : Option MarketSessionOptions :=
  if name = "--market-date-overridden" then some { options with marketDateOverridden := true }
  else if name = "--no-market-date-overridden" then
    some { options with marketDateOverridden := false }
  else if name = "--resume" then some { options with resume := true }
  else if name = "--no-resume" then some { options with resume := false }
  else if name = "--force" then some { options with force := true }
  else if name = "--build-duckdb-views" then some { options with buildViews := true }
  else if name = "--no-build-duckdb-views" then some { options with buildViews := false }
  else none

def valueOption (name value : String) (options : MarketSessionOptions) :
    Option MarketSessionOptions :=
  if name = "--end" then some { options with endDate := some value }
  else if name = "--natural-date" then some { options with naturalDate := some value }
  else if name = "--candidate-date" then some { options with candidateDate := some value }
  else if name = "--market-date" then some { options with marketDate := some value }
  else if name = "--code" then some { options with code := options.code ++ [value] }
  else if name = "--lookback-days" then some { options with lookbackDays := some value }
  else if name = "--provider" then some { options with provider := some value }
  else none

/-- The options of the command line, one after the other; an unknown one is refused. -/
def parseOptions : List String → MarketSessionOptions → Option MarketSessionOptions
  | [], options => some options
  | [name], options => flagOption name options
  | name :: value :: rest, options =>
    match flagOption name options with
    | some options => parseOptions (value :: rest) options
    | none => (valueOption name value options).bind (parseOptions rest)

/-- The arguments of the command in the command line of its process. -/
def sessionArguments : List String → Option (List String)
  | _ :: "-m" :: "src.cli" :: "update-baostock-market-session" :: args => some args
  | _ => none

inductive SessionMode where
  | adjustedMarketSession
  | unadjustedOnly
  deriving DecidableEq

/-- What `run_update_daily` is called for, and the dates of the manifest. -/
structure SessionRun where
  mode : SessionMode
  dataset : String
  endDate : String
  marketDate : Int
  deriving DecidableEq

def shouldRunAdjustedMarketSession (naturalDate candidateDate marketDate : Int)
    (marketDateOverridden : Bool) : Bool :=
  4 ≤ weekday naturalDate || candidateDate != marketDate || marketDateOverridden

section Command

variable (p : Pandas)

/-- `date_iso` on a text. -/
def dateIso (value : String) : Option String :=
  (p.toDatetime (.text value)).map fun ns => isoDay (ns / nsPerDay)

/-- `_parse_date`. -/
def parseDate (value : String) : Option Int := (dateIso p value).bind strptimeDay

/-- `value or default`. -/
def given (value : Option String) : Option String := value.filter fun text => text ≠ ""

/-- `_resolve_market_session_dates`; `now` is the clock in the time zone of the settings. -/
def resolveMarketSessionDates (now : Sources.LocalTime) (today : Int)
    (options : MarketSessionOptions) : Option (Int × Int × Int) := do
  let fallback ← match (given options.marketDate).or (given options.endDate) with
    | some value => dateIso p value
    | none => some (isoDay (Sources.defaultCandidateDate now))
  let marketDate ← parseDate p ((given options.marketDate).getD fallback)
  let candidateDate ← parseDate p ((given options.candidateDate).getD fallback)
  let naturalDate ← parseDate p ((given options.naturalDate).getD (isoDay today))
  some (naturalDate, candidateDate, marketDate)

def updateBaostockMarketSession (now : Sources.LocalTime) (today : Int)
    (options : MarketSessionOptions) : Option SessionRun := do
  let (naturalDate, candidateDate, marketDate) ← resolveMarketSessionDates p now today options
  let endDate := (given options.endDate).getD (isoDay marketDate)
  if shouldRunAdjustedMarketSession naturalDate candidateDate marketDate
      options.marketDateOverridden then
    some ⟨.adjustedMarketSession, "baostock_market_session_daily", endDate, marketDate⟩
  else some ⟨.unadjustedOnly, "baostock_cn_stock_daily_bar_unadjusted", endDate, marketDate⟩

/-- What a command line of the step runs. -/
def sessionRun (now : Sources.LocalTime) (today : Int) (command : List String) :
    Option SessionRun := do
  let args ← sessionArguments command
  let options ← parseOptions args {}
  updateBaostockMarketSession p now today options

end Command

/-! The trip of the dates -/

section Trip

variable {p : Pandas} {python : String} {dates : DailyEffectiveDates}

private theorem renderText_dates :
    renderText "{market_date}" (workflowContext python dates) = some (isoDay dates.marketDate) ∧
      renderText "{natural_date}" (workflowContext python dates) = some (isoDay dates.naturalDate) ∧
      renderText "{candidate_date}" (workflowContext python dates) =
        some (isoDay dates.candidateDate) := by
  have hfield : ∀ s : String, (some (s.toList ++ [])).map String.ofList = some s := by
    intro s
    rw [List.append_nil, Option.map_some, String.ofList_toList]
  exact ⟨hfield _, hfield _, hfield _⟩

/-- The command line of the step: the operator's override is not in it. -/
private theorem command_eq : (baostockMarketSession python).command dates =
    [python, "-m", "src.cli", "update-baostock-market-session", "--end", isoDay dates.marketDate,
      "--natural-date", isoDay dates.naturalDate, "--candidate-date", isoDay dates.candidateDate,
      "--market-date", isoDay dates.marketDate, "--no-build-duckdb-views"] := by
  obtain ⟨hmarket, hnatural, hcandidate⟩ := @renderText_dates python dates
  let render (item : String) : Option (List String) :=
    if item = "{qdc}" then some (cli python)
    else (renderText item (workflowContext python dates)).map fun text => [text]
  have hcli : render "{qdc}" = some (cli python) := if_pos rfl
  have hplain : ∀ item ∈ ["update-baostock-market-session", "--end", "--natural-date",
      "--candidate-date", "--market-date", "--no-build-duckdb-views"], render item = some [item] := by
    intro item hitem
    simp only [List.mem_cons, List.not_mem_nil, or_false] at hitem
    rcases hitem with rfl | rfl | rfl | rfl | rfl | rfl <;> rfl
  have hdates : render "{market_date}" = some [isoDay dates.marketDate] ∧
      render "{natural_date}" = some [isoDay dates.naturalDate] ∧
      render "{candidate_date}" = some [isoDay dates.candidateDate] := by
    have hne : "{market_date}" ≠ "{qdc}" ∧ "{natural_date}" ≠ "{qdc}" ∧
        "{candidate_date}" ≠ "{qdc}" := by decide
    refine ⟨?_, ?_, ?_⟩
    · exact (if_neg hne.1).trans (congrArg (Option.map fun text => [text]) hmarket)
    · exact (if_neg hne.2.1).trans (congrArg (Option.map fun text => [text]) hnatural)
    · exact (if_neg hne.2.2).trans (congrArg (Option.map fun text => [text]) hcandidate)
  simp only [List.mem_cons, List.not_mem_nil, or_false, forall_eq_or_imp, forall_eq] at hplain
  have hitems : baostockMarketSessionCommand.mapM render =
      some [cli python, ["update-baostock-market-session"], ["--end"], [isoDay dates.marketDate],
        ["--natural-date"], [isoDay dates.naturalDate], ["--candidate-date"],
        [isoDay dates.candidateDate], ["--market-date"], [isoDay dates.marketDate],
        ["--no-build-duckdb-views"]] := by
    simp only [baostockMarketSessionCommand, List.mapM_cons, List.mapM_nil, hcli, hplain, hdates]
    rfl
  show (renderCommand python (workflowContext python dates) baostockMarketSessionCommand).getD [] = _
  unfold renderCommand
  rw [show (baostockMarketSessionCommand.mapM fun item => if item = "{qdc}" then some (cli python)
    else (renderText item (workflowContext python dates)).map fun text => [text]) = _ from hitems]
  rfl

private theorem options_eq : (sessionArguments ((baostockMarketSession python).command dates)).bind
    (fun args => parseOptions args {}) = some
      { endDate := some (isoDay dates.marketDate)
        naturalDate := some (isoDay dates.naturalDate)
        candidateDate := some (isoDay dates.candidateDate)
        marketDate := some (isoDay dates.marketDate) } := by
  rw [command_eq]
  rfl

/-- The days that a timestamp of pandas can have. -/
def IsTimestampDay (day : Int) : Prop := -106751 ≤ day ∧ day ≤ 106751

instance (day : Int) : Decidable (IsTimestampDay day) := inferInstanceAs (Decidable (_ ∧ _))

/-- `pd.to_datetime` reads dates in ISO form. -/
def ReadsIsoDates (p : Pandas) : Prop :=
  ∀ day, IsTimestampDay day → p.toDatetime (.text (isoDay day)) = some (day * nsPerDay)

private theorem IsTimestampDay.isDate {day : Int} (h : IsTimestampDay day) : IsDate day := by
  unfold IsTimestampDay at h
  unfold IsDate
  omega

private theorem dateIso_isoDay (reads : ReadsIsoDates p) {day : Int} (h : IsTimestampDay day) :
    dateIso p (isoDay day) = some (isoDay day) := by
  unfold dateIso
  rw [reads day h, Option.map_some, Int.mul_ediv_cancel day (by decide)]

private theorem parseDate_isoDay (reads : ReadsIsoDates p) {day : Int} (h : IsTimestampDay day) :
    parseDate p (isoDay day) = some day := by
  unfold parseDate
  rw [dateIso_isoDay reads h, Option.bind_some, strptimeDay_isoDay h.isDate]

private theorem given_isoDay {day : Int} (h : IsTimestampDay day) :
    given (some (isoDay day)) = some (isoDay day) := by
  unfold given
  rw [Option.filter_some, if_pos (decide_eq_true (isoDay_ne_empty h.isDate))]

/-- The three dates of the run, as the orchestrator has resolved them. -/
structure InRange (dates : DailyEffectiveDates) : Prop where
  natural : IsTimestampDay dates.naturalDate
  candidate : IsTimestampDay dates.candidateDate
  market : IsTimestampDay dates.marketDate

variable {now : Sources.LocalTime} {today : Int}

/-- The command resolves the dates it was given, and takes the override for absent. -/
private theorem sessionRun_mode (reads : ReadsIsoDates p) (range : InRange dates) :
    (sessionRun p now today ((baostockMarketSession python).command dates)).map SessionRun.mode =
      some (if shouldRunAdjustedMarketSession dates.naturalDate dates.candidateDate dates.marketDate
        false then .adjustedMarketSession else .unadjustedOnly) := by
  obtain ⟨args, hargs, hoptions⟩ := Option.bind_eq_some_iff.mp (@options_eq python dates)
  have hdates : resolveMarketSessionDates p now today
      { endDate := some (isoDay dates.marketDate)
        naturalDate := some (isoDay dates.naturalDate)
        candidateDate := some (isoDay dates.candidateDate)
        marketDate := some (isoDay dates.marketDate) } =
      some (dates.naturalDate, dates.candidateDate, dates.marketDate) := by
    unfold resolveMarketSessionDates
    simp only [given_isoDay range.market, given_isoDay range.candidate, given_isoDay range.natural,
      Option.or_some, Option.getD_some, dateIso_isoDay reads range.market,
      parseDate_isoDay reads range.market, parseDate_isoDay reads range.candidate,
      parseDate_isoDay reads range.natural, Option.bind_eq_bind, Option.bind_some]
  unfold sessionRun updateBaostockMarketSession
  simp only [hargs, hoptions, hdates, Option.bind_eq_bind, Option.bind_some]
  split <;> rfl

end Trip

/-! The scheduler and the command -/

section Agreement

/-- The dates that the workflow is rendered with. -/
def workflowDates (dates : Sources.DailyEffectiveDates) : DailyEffectiveDates :=
  ⟨dates.naturalDate, dates.candidateDate, dates.marketDate, dates.histStart,
    dates.marketDateOverridden⟩

/-- The session runs with adjusted bars exactly when the steps of the market window are scheduled. -/
def SessionModeAgrees (p : Pandas) (python : String) (now : Sources.LocalTime) (today : Int)
    (rules : List String) (dates : DailyEffectiveDates) : Prop :=
  (sessionRun p now today ((baostockMarketSession python).command dates)).map SessionRun.mode =
      some .adjustedMarketSession ↔
    schedulePolicyMatches .marketWindow rules dates = true

variable {p : Pandas} {request : Sources.DateRequest} {stored refreshed : Except StoreError Frame}
  {dates : Sources.DailyEffectiveDates}

private theorem resolved_dates
    (hresolved : Sources.resolveDailyEffectiveDates p request stored refreshed = .ok dates) :
    dates.naturalDate = request.naturalDate ∧ dates.candidateDate = request.candidate ∧
      dates.marketDateOverridden = request.marketDate.isSome ∧
      ∀ day, request.marketDate = some day → dates.marketDate = day := by
  unfold Sources.resolveDailyEffectiveDates at hresolved
  simp only at hresolved
  cases hmarket : request.marketDate with
  | some marketDate =>
    simp only [hmarket] at hresolved
    split at hresolved
    case isTrue => cases hresolved
    case isFalse =>
      obtain rfl := Except.ok.inj hresolved
      refine ⟨rfl, rfl, rfl, ?_⟩
      intro day hday
      exact Option.some.inj hday
  | none =>
    simp only [hmarket] at hresolved
    split at hresolved
    case isTrue =>
      obtain ⟨calendar, -, hresolved⟩ := Lib.Checked.bind_eq_ok.mp hresolved
      obtain ⟨marketDate, -, hresolved⟩ := Lib.Checked.bind_eq_ok.mp hresolved
      obtain rfl := Except.ok.inj hresolved
      exact ⟨rfl, rfl, rfl, fun day hday => by cases hday⟩
    case isFalse =>
      obtain rfl := Except.ok.inj hresolved
      exact ⟨rfl, rfl, rfl, fun day hday => by cases hday⟩

/-- Scheduler and command agree unless the operator gives the candidate itself as the market date
from Monday to Thursday: the dates alone do not tell this from an ordinary day. -/
theorem session_mode_agrees_iff (reads : ReadsIsoDates p) (python : String)
    (now : Sources.LocalTime) (today : Int) (rules : List String)
    (hresolved : Sources.resolveDailyEffectiveDates p request stored refreshed = .ok dates)
    (range : InRange (workflowDates dates)) :
    SessionModeAgrees p python now today rules (workflowDates dates) ↔
      ¬(request.marketDate = some request.candidate ∧ weekday request.naturalDate < 4) := by
  obtain ⟨hnatural, hcandidate, hoverridden, hmarket⟩ := resolved_dates hresolved
  have hmode : (sessionRun p now today ((baostockMarketSession python).command
      (workflowDates dates))).map SessionRun.mode = some .adjustedMarketSession ↔
      4 ≤ weekday request.naturalDate ∨ request.candidate ≠ dates.marketDate := by
    rw [sessionRun_mode reads range]
    simp only [shouldRunAdjustedMarketSession, workflowDates, hnatural, hcandidate]
    split <;> simp_all
  have hscheduled : schedulePolicyMatches .marketWindow rules (workflowDates dates) = true ↔
      (4 ≤ weekday request.naturalDate ∨ request.candidate ≠ dates.marketDate) ∨
        request.marketDate.isSome = true := by
    simp [schedulePolicyMatches, workflowDates, hnatural, hcandidate, hoverridden]
  unfold SessionModeAgrees
  rw [hmode, hscheduled]
  cases hrequest : request.marketDate with
  | none => simp
  | some day =>
    rw [hmarket day hrequest, Option.some.injEq]
    simp only [Option.isSome_some, or_true, iff_true]
    rw [not_and_or, not_lt, Or.comm, ne_comm]

end Agreement

/-! Two days of an operator -/

def isoPandas : Pandas :=
  { Pandas.plain with
    toDatetime := fun
      | .text s => (strptimeDay s).map (· * nsPerDay)
      | c => Pandas.plain.toDatetime c
    toDatetime_date := Pandas.plain.toDatetime_date
    toDatetime_stamp := Pandas.plain.toDatetime_stamp }

private theorem readsIsoDates_isoPandas : ReadsIsoDates isoPandas := by
  intro day hday
  show (strptimeDay (isoDay day)).map (· * nsPerDay) = _
  rw [strptimeDay_isoDay hday.isDate, Option.map_some]

/-- A Wednesday, with a market date of the operator's. -/
def overriddenRequest (marketDate : Int) : Sources.DateRequest where
  naturalDate := 20614
  localNow := none
  settings := true
  asOfDate := some 20614
  marketDate := some marketDate

def overriddenDates (marketDate : Int) : Sources.DailyEffectiveDates :=
  ⟨20614, 20614, marketDate, marketDate - 30, true⟩

def noCalendar : Except StoreError Frame := .error (.valueError "not read")

/-- An earlier session is distinguished by its date. -/
theorem session_mode_agrees_earlier :
    SessionModeAgrees isoPandas "python" ⟨20614, 0⟩ 20614 [] (workflowDates (overriddenDates 20612)) ↔
      ¬(some (20612 : Int) = some 20614 ∧ weekday 20614 < 4) :=
  @session_mode_agrees_iff isoPandas (overriddenRequest 20612) noCalendar noCalendar
    (overriddenDates 20612) readsIsoDates_isoPandas "python" ⟨20614, 0⟩ 20614 [] rfl
    (InRange.mk (by decide) (by decide) (by decide))

/-- The session of the day itself, by `--market-date`: the steps of the market window are scheduled
and the session runs without adjusted bars. -/
theorem override_lost_in_command :
    Sources.resolveDailyEffectiveDates isoPandas (overriddenRequest 20614) noCalendar noCalendar =
        .ok (overriddenDates 20614) ∧
      schedulePolicyMatches .marketWindow [] (workflowDates (overriddenDates 20614)) = true ∧
      ¬SessionModeAgrees isoPandas "python" ⟨20614, 0⟩ 20614 []
        (workflowDates (overriddenDates 20614)) := by
  have hscheduled :
      schedulePolicyMatches .marketWindow [] (workflowDates (overriddenDates 20614)) = true := by decide
  refine ⟨rfl, hscheduled, ?_⟩
  intro agrees
  have hmode := agrees.mpr hscheduled
  rw [sessionRun_mode readsIsoDates_isoPandas
    (InRange.mk (by decide) (by decide) (by decide))] at hmode
  exact absurd hmode (by decide)

end QuantDataCenter.Orchestrator

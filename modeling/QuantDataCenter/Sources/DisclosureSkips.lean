import QuantDataCenter.Sources.DisclosureFreshness

/-!
What a skipped disclosure task still has. The checkpoints of a period are kept for each market or
symbol and its partition is shared by all of them, so a partition that is replaced keeps the rows
of one market, whatever the checkpoints of the others say.
-/

set_option autoImplicit false
set_option relaxedAutoImplicit false

namespace QuantDataCenter.Sources

open QuantDataCenter.Lib QuantDataCenter.Pipeline QuantDataCenter.Tabular QuantDataCenter.Quality
open QuantDataCenter.Storage QuantDataCenter.Storage.Metadata

/-! The last fetch of a task -/

def DisclosureFetch.Answers (fetch : DisclosureFetch) (target : DisclosureTarget)
    (period : ReportPeriod) (code : String) : Prop :=
  fetch.target = target ∧ fetch.period = period ∧ fetch.code = code

instance (fetch : DisclosureFetch) (target : DisclosureTarget) (period : ReportPeriod)
    (code : String) : Decidable (fetch.Answers target period code) :=
  inferInstanceAs (Decidable (_ ∧ _ ∧ _))

/-- The last fetch that has been written for a code of a period. -/
def lastOwnFetch (fetches : List DisclosureFetch) (target : DisclosureTarget)
    (period : ReportPeriod) (code : String) : Option DisclosureFetch :=
  fetches.find? fun fetch => fetch.Answers target period code

/-- The partition of the period has the rows of the fetch. -/
def HasData (world : DisclosureWorld) (fetch : DisclosureFetch) : Prop :=
  ∀ r ∈ fetch.rows, r ∈ content world.store fetch.target.dataset fetch.period.text

/-- The last fetch for the period, which replaced its partition, was for another market. -/
def Displaced (fetches : List DisclosureFetch) (fetch : DisclosureFetch) : Prop :=
  fetch.target = .reportDisclosure ∧ fetch.rows ≠ [] ∧
    ∃ later, lastFetch fetches fetch.target fetch.period fetch.code = some later ∧
      later.code ≠ fetch.code

section LastFetch

variable {fetches : List DisclosureFetch} {target : DisclosureTarget} {period : ReportPeriod}
  {code : String} {fetch later : DisclosureFetch}

private theorem DisclosureFetch.Answers.serves (answers : fetch.Answers target period code) :
    fetch.Serves target period code :=
  ⟨answers.1, answers.2.1, Or.inr answers.2.2⟩

private theorem lastOwnFetch_spec (hlast : lastOwnFetch fetches target period code = some fetch) :
    fetch ∈ fetches ∧ fetch.Answers target period code := by
  unfold lastOwnFetch at hlast
  have hanswers := List.find?_some hlast
  exact ⟨List.mem_of_find?_eq_some hlast, of_decide_eq_true hanswers⟩

private theorem lastOwnFetch_isSome (hfetch : fetch ∈ fetches) :
    ∃ last, lastOwnFetch fetches fetch.target fetch.period fetch.code = some last := by
  have hanswers : fetch.Answers fetch.target fetch.period fetch.code := ⟨rfl, rfl, rfl⟩
  exact Option.isSome_iff_exists.mp
    (List.find?_isSome.mpr ⟨fetch, hfetch, decide_eq_true hanswers⟩)

private theorem lastOwnFetch_of_lastFetch
    (hlast : lastFetch fetches target period code = some later)
    (hcode : later.code = code) : lastOwnFetch fetches target period code = some later := by
  obtain ⟨-, htarget, hperiod, -⟩ := lastFetch_spec hlast
  unfold lastFetch at hlast
  unfold lastOwnFetch
  rw [List.find?_eq_some_iff_append] at hlast ⊢
  obtain ⟨-, newer, older, hsplit, hnewer⟩ := hlast
  have hanswers : later.Answers target period code := ⟨htarget, hperiod, hcode⟩
  refine ⟨decide_eq_true hanswers, newer, older, hsplit, ?_⟩
  intro other hother
  have hnot := hnewer other hother
  simp only [Bool.not_eq_eq_eq_not, Bool.not_true, decide_eq_false_iff_not] at hnot ⊢
  exact fun hanswers => hnot hanswers.serves

end LastFetch

/-! The codes of the fetches of a run -/

namespace DisclosureRun

variable {p : Pandas} {h : Hashing} {e : CheckpointEnv} {run : DisclosureRun}

/-- The fetch is one for a code of the run. -/
def Fetches (run : DisclosureRun) (fetch : DisclosureFetch) : Prop :=
  fetch.target = run.target ∧ fetch.code ∈ run.target.codes run.request.market fetch.period

private theorem fetches_of_planned {world : DisclosureWorld} (tasks : List DisclosureTask)
    (hplan : planDisclosure e run.target run.request world.store world.checkpoints = .ok tasks) :
    ∀ task ∈ tasks, ∀ selected, run.answer task.period task.code = .ok selected →
      run.Fetches (run.answerFetch p task.period task.code selected) :=
  fun task htask _ _ => ⟨rfl, (planned_task hplan task htask).1⟩

end DisclosureRun

section History

variable {p : Pandas} {h : Hashing} {e : CheckpointEnv}

private theorem performAll_fetches {runs : List DisclosureRun} {world : DisclosureWorld}
    (inv : DisclosureInv p world []) :
    ∀ fetch ∈ (performAll p h e runs world).fetches,
      fetch ∈ world.fetches ∨ ∃ run ∈ runs, run.Fetches fetch := by
  induction runs generalizing world with
  | nil => exact fun fetch hfetch => Or.inl hfetch
  | cons run runs ih =>
    intro fetch hfetch
    rcases ih (@DisclosureRun.perform_spec p h run e world inv).1 fetch hfetch with
      hfirst | ⟨other, hother, hfetched⟩
    · rcases DisclosureRun.perform_fetches inv DisclosureRun.fetches_of_planned fetch hfirst with
        hold | hfetched
      · exact Or.inl hold
      · exact Or.inr ⟨run, List.mem_cons_self, hfetched⟩
    · exact Or.inr ⟨other, List.mem_cons_of_mem _ hother, hfetched⟩

private theorem forecast_code {st : Store} (hst : WellStored p st) {runs : List DisclosureRun}
    {fetch : DisclosureFetch} (hfetch : fetch ∈ (performAll p h e runs ⟨st, [], []⟩).fetches)
    (htarget : fetch.target = .yjygEm) : fetch.code = fetch.period.text := by
  rcases performAll_fetches (inv_start hst) fetch hfetch with hnil | ⟨run, -, hrun, hcode⟩
  · cases hnil
  · rw [← hrun, htarget] at hcode
    exact List.mem_singleton.mp hcode

end History

/-! Fetches that a partition has lost -/

section Displacement

variable {p : Pandas} {world : DisclosureWorld} {fetch later : DisclosureFetch}

private theorem rows_eq_nil_of_hasData (inv : DisclosureInv p world [])
    (hfetch : fetch ∈ world.fetches)
    (hlast : lastFetch world.fetches fetch.target fetch.period fetch.code = some later)
    (htarget : fetch.target = .reportDisclosure) (hcode : later.code ≠ fetch.code)
    (hdata : HasData world fetch) : fetch.rows = [] := by
  obtain ⟨hlater, hsame, -⟩ := lastFetch_spec hlast
  rw [List.eq_nil_iff_forall_not_mem]
  intro r hr
  have hmarket : ∀ other : DisclosureFetch, other.target = .reportDisclosure →
      "market" ∈ other.target.labelColumn := by
    intro other hother
    rw [hother]
    rfl
  have hreplace : fetch.target.writeMode = .replace := by
    rw [htarget]
    rfl
  have hstored : r ∈ later.rows := (inv.held _ _ _ _ hlast).2 hreplace r (hdata r hr)
  have hown := inv.labelled fetch hfetch "market" (hmarket fetch htarget) r hr
  have hother := inv.labelled later hlater "market" (hmarket later (hsame.trans htarget)) r hstored
  rw [hown] at hother
  exact hcode (Cell.text.inj hother).symm

/-- The last fetch of a task is in its partition exactly if no other market has displaced it. -/
private theorem hasData_iff (inv : DisclosureInv p world [])
    (forecasts : ∀ fetch ∈ world.fetches, fetch.target = .yjygEm → fetch.code = fetch.period.text)
    (hlast : lastOwnFetch world.fetches fetch.target fetch.period fetch.code = some fetch) :
    HasData world fetch ↔ ¬Displaced world.fetches fetch := by
  have hfetch : fetch ∈ world.fetches := (lastOwnFetch_spec hlast).1
  obtain ⟨later, hlater⟩ := lastFetch_isSome hfetch
  by_cases hcode : later.code = fetch.code
  · have hsame : some later = some fetch := by
      rw [← lastOwnFetch_of_lastFetch hlater hcode, hlast]
    obtain rfl := Option.some.inj hsame
    refine iff_of_true (inv.held _ _ _ _ hlater).1 ?_
    rintro ⟨-, -, other, hother, hne⟩
    rw [hlater] at hother
    exact hne (Option.some.inj hother ▸ rfl)
  · have htarget : fetch.target = .reportDisclosure := by
      obtain ⟨hmem, hsame, hperiod, hserves⟩ := lastFetch_spec hlater
      have hreplace : fetch.target.writeMode = .replace := hserves.resolve_right hcode
      cases hcases : fetch.target with
      | yjygEm =>
        rw [forecasts later hmem (hsame.trans hcases), forecasts fetch hfetch hcases, hperiod] at hcode
        exact absurd rfl hcode
      | reportDisclosure => rfl
      | yysjEm =>
        rw [hcases] at hreplace
        cases hreplace
    constructor
    · intro hdata hdisplaced
      exact hdisplaced.2.1 (rows_eq_nil_of_hasData inv hfetch hlater htarget hcode hdata)
    · intro hkept r hr
      exact absurd ⟨htarget, List.ne_nil_of_mem hr, later, hlater, hcode⟩ hkept

end Displacement

/-! Skipped tasks -/

section Skips

variable {p : Pandas} {h : Hashing} {e : CheckpointEnv}

/-- The task was fetched, and its rows are stored exactly if they have not been displaced. -/
def KeepsData (world : DisclosureWorld) (target : DisclosureTarget) (period : ReportPeriod)
    (code : String) : Prop :=
  ∃ fetch, lastOwnFetch world.fetches target period code = some fetch ∧
    (HasData world fetch ↔ ¬Displaced world.fetches fetch)

private theorem keepsData_of_fetch {st : Store} (hst : WellStored p st) {runs : List DisclosureRun}
    {fetch : DisclosureFetch} (hfetch : fetch ∈ (performAll p h e runs ⟨st, [], []⟩).fetches) :
    KeepsData (performAll p h e runs ⟨st, [], []⟩) fetch.target fetch.period fetch.code := by
  obtain ⟨last, hlast⟩ := lastOwnFetch_isSome hfetch
  obtain ⟨-, htarget, hperiod, hcode⟩ := lastOwnFetch_spec hlast
  refine ⟨last, hlast, ?_⟩
  apply hasData_iff (inv_performAll (inv_start hst)) fun other hother => forecast_code hst hother
  rw [htarget, hperiod, hcode]
  exact hlast

/-- Every success in the checkpoints, and every task that is skipped for one, has the rows of its
last fetch as long as no other market has displaced them. -/
theorem skipped_tasks_have_data {st : Store} (hst : WellStored p st) (runs : List DisclosureRun) :
    let world := performAll p h e runs ⟨st, [], []⟩
    (∀ (run : DisclosureRun) tasks,
      planDisclosure e run.target run.request world.store world.checkpoints = .ok tasks →
      ∀ task ∈ tasks, task.skipped = true → KeepsData world run.target task.period task.code) ∧
    ∀ entry ∈ world.checkpoints, entry.2 = "success" → ∃ target period code,
      entry.1 = target.key period code ∧ KeepsData world target period code := by
  have inv : DisclosureInv p (performAll p h e runs ⟨st, [], []⟩) [] := inv_performAll (inv_start hst)
  constructor
  · intro run tasks hplan task htask hskipped
    rw [(DisclosureRun.planned_task hplan task htask).2] at hskipped
    obtain ⟨fetch, hfetch, htarget, hperiod, hcode⟩ := skipped_fetch inv hskipped
    rw [← htarget, ← hperiod, ← hcode]
    exact keepsData_of_fetch hst hfetch
  · intro entry hentry hstatus
    obtain ⟨fetch, hfetch, hkey⟩ := inv.recorded entry (Or.inl hentry) hstatus
    exact ⟨fetch.target, fetch.period, fetch.code, hkey, keepsData_of_fetch hst hfetch⟩

private theorem one_market_not_displaced {st : Store} (hst : WellStored p st)
    {runs : List DisclosureRun}
    {market : String} (asked : ∀ run ∈ runs, run.target = .reportDisclosure →
      (present run.request.market).getD "沪深京" = market)
    {fetch : DisclosureFetch} (hfetch : fetch ∈ (performAll p h e runs ⟨st, [], []⟩).fetches) :
    ¬Displaced (performAll p h e runs ⟨st, [], []⟩).fetches fetch := by
  have hmarket : ∀ other ∈ (performAll p h e runs ⟨st, [], []⟩).fetches,
      other.target = .reportDisclosure → other.code = market := by
    intro other hother htarget
    rcases performAll_fetches (inv_start hst) other hother with hnil | ⟨run, hmem, hrun, hcode⟩
    · cases hnil
    · have hreport : run.target = .reportDisclosure := hrun.symm.trans htarget
      rw [hreport] at hcode
      rw [List.mem_singleton.mp hcode, asked run hmem hreport]
  rintro ⟨htarget, -, later, hlater, hne⟩
  obtain ⟨hmem, hsame, -⟩ := lastFetch_spec hlater
  apply hne
  rw [hmarket later hmem (hsame.trans htarget), hmarket fetch hfetch htarget]

end Skips

/-! The schedule of another market -/

def scheduleOf (code : String) : Frame where
  columns := ["code", "name"]
  dtype _ := .object
  rows := [rowOf [("code", .text code), ("name", .text "平安银行")]]

/-- A run for the annual reports of 2023. -/
def scheduleRun (market : Option String) (code : String) : DisclosureRun where
  target := .reportDisclosure
  request :=
    { today := civilDate 2024 4 10, market := market, periods := some [⟨2023, .annual⟩] }
  answer _ _ := .ok (scheduleOf code)
  fetchedAt _ _ := 0
  env _ _ := .plain true

/-- The tasks that a run for all markets plans. -/
def plannedSchedules (world : DisclosureWorld) : Except StoreError (List DisclosureTask) :=
  planDisclosure plainCheckpoints .reportDisclosure (scheduleRun none "600000").request world.store
    world.checkpoints

def scheduleFetched : DisclosureWorld :=
  performAll .plain .plain plainCheckpoints [scheduleRun none "600000"] noDisclosures

def scheduleDisplaced : DisclosureWorld :=
  performAll .plain .plain plainCheckpoints
    [scheduleRun none "600000", scheduleRun (some "深市") "000001"] noDisclosures

theorem schedule_kept :
    (plannedSchedules scheduleFetched).toOption.map (·.map DisclosureTask.skipped) = some [true] ∧
      ∃ fetch, lastOwnFetch scheduleFetched.fetches .reportDisclosure ⟨2023, .annual⟩ "沪深京" =
        some fetch ∧ HasData scheduleFetched fetch := by
  have hplanned : (plannedSchedules scheduleFetched).toOption.map
      (·.map fun task => (task.period, task.code, task.skipped)) =
        some [(⟨2023, .annual⟩, "沪深京", true)] := by decide +kernel
  refine ⟨by decide +kernel, ?_⟩
  obtain ⟨tasks, hplan, htasks⟩ := Option.map_eq_some_iff.mp hplanned
  obtain ⟨task, rfl, htask⟩ := List.map_eq_singleton_iff.mp htasks
  simp only [Prod.mk.injEq] at htask
  obtain ⟨hperiod, hcode, hskipped⟩ := htask
  obtain ⟨fetch, hlast, hkept⟩ := (@skipped_tasks_have_data .plain .plain plainCheckpoints .empty
    (wellStored_empty .plain) [scheduleRun none "600000"]).1 (scheduleRun none "600000") [task]
    (Checked.eq_ok_of_toOption hplan) task List.mem_cons_self hskipped
  rw [hperiod, hcode] at hlast
  refine ⟨fetch, hlast, hkept.mpr ?_⟩
  apply @one_market_not_displaced .plain .plain plainCheckpoints .empty (wellStored_empty .plain)
    [scheduleRun none "600000"] "沪深京"
  · intro run hrun _
    rw [List.mem_singleton.mp hrun]
    decide +kernel
  · exact (lastOwnFetch_spec hlast).1

/-- A run for one market replaces the period of the run for all markets, which still skips it. -/
theorem schedule_displaced_and_skipped :
    (plannedSchedules scheduleDisplaced).toOption.map
        (·.map fun task => (task.code, task.skipped)) = some [("沪深京", true)] ∧
      ∃ fetch, lastOwnFetch scheduleDisplaced.fetches .reportDisclosure ⟨2023, .annual⟩ "沪深京" =
        some fetch ∧ ¬HasData scheduleDisplaced fetch := by
  refine ⟨by decide +kernel, ?_⟩
  have hfetched : (lastOwnFetch scheduleDisplaced.fetches .reportDisclosure ⟨2023, .annual⟩
      "沪深京").map (fun fetch => fetch.rows.map fun r => r "code") = some [.text "600000"] := by
    decide +kernel
  have hstored : (content scheduleDisplaced.store akshareReportDisclosureDataset "2023年报").map
      (fun r => r "code") = [.text "000001"] := by decide +kernel
  obtain ⟨fetch, hlast, hcodes⟩ := Option.map_eq_some_iff.mp hfetched
  refine ⟨fetch, hlast, fun hdata => ?_⟩
  obtain ⟨r, hrows, hcode⟩ := List.map_eq_singleton_iff.mp hcodes
  have hr : r ∈ content scheduleDisplaced.store akshareReportDisclosureDataset "2023年报" := by
    obtain ⟨-, htarget, hperiod, -⟩ := lastOwnFetch_spec hlast
    have hkept := hdata r (by rw [hrows]; exact List.mem_singleton_self r)
    rw [htarget, hperiod] at hkept
    exact hkept
  have hcell := List.mem_map_of_mem (f := fun r : Row => r "code") hr
  rw [hstored, hcode, List.mem_singleton] at hcell
  exact absurd hcell (by decide)

end QuantDataCenter.Sources

import QuantDataCenter.Sources.RollingDisclosure

/-!
How fresh the rolling disclosure modules keep their window. A checkpoint that says success is
never asked for again, so a partition holds the answer as of its last fetch; it holds the answer
as of a run where that answer is still the same.
-/

set_option autoImplicit false
set_option relaxedAutoImplicit false

namespace QuantDataCenter.Sources

open QuantDataCenter.Lib QuantDataCenter.Pipeline QuantDataCenter.Tabular QuantDataCenter.Quality
open QuantDataCenter.Storage QuantDataCenter.Storage.Metadata

/-! Texts of a period -/

private theorem toString_append_inj {n n' : ℕ} {s s' : String}
    (hs : ∀ c ∈ s.toList.head?, c.isDigit = false) (hs' : ∀ c ∈ s'.toList.head?, c.isDigit = false)
    (heq : toString n ++ s = toString n' ++ s') : n = n' ∧ s = s' := by
  have hdigits : ∀ (m : ℕ) (t : String), (∀ c ∈ t.toList.head?, c.isDigit = false) →
      (toString m ++ t).toList.takeWhile Char.isDigit = Nat.toDigits 10 m := by
    intro m t ht
    rw [String.toList_append, Nat.toString_eq_ofList_toDigits, String.toList_ofList,
      List.takeWhile_append_of_pos fun c hc => Nat.isDigit_of_mem_toDigits (by decide) (by decide) hc]
    cases hlist : t.toList with
    | nil => simp
    | cons c rest =>
      have hc : c.isDigit = false := ht c (by rw [hlist]; rfl)
      simp [hc]
  have hn : n = n' := by
    have htake : Nat.toDigits 10 n = Nat.toDigits 10 n' := by
      rw [← hdigits n s hs, ← hdigits n' s' hs', heq]
    rw [← @Nat.ofDigitChars_ten_toDigits n, ← @Nat.ofDigitChars_ten_toDigits n', htake]
  subst hn
  refine ⟨rfl, ?_⟩
  have hlist := congrArg String.toList heq
  simp only [String.toList_append] at hlist
  exact String.toList_inj.mp (List.append_cancel_left hlist)

namespace ReportPeriod

private theorem text_injective : Function.Injective text := by
  intro a b heq
  obtain ⟨year, quarter⟩ := a
  obtain ⟨year', quarter'⟩ := b
  have hdigits : ∀ q : Quarter, ∀ c ∈ q.suffix.toList.head?, c.isDigit = false := by
    intro q c hc
    have hhead : (q.suffix.toList.head?.all fun c => c.isDigit = false) = true := by
      cases q <;> decide +kernel
    exact of_decide_eq_true ((Option.all_eq_true _ _).mp hhead c hc)
  obtain ⟨rfl, hsuffix⟩ := toString_append_inj (hdigits quarter) (hdigits quarter') heq
  have hquarter : quarter = quarter' := by
    revert hsuffix
    cases quarter <;> cases quarter' <;> decide +kernel
  rw [hquarter]

private theorem endIso_injective : Function.Injective endIso := by
  intro a b heq
  obtain ⟨year, quarter⟩ := a
  obtain ⟨year', quarter'⟩ := b
  have hdigits : ∀ q : Quarter, ∀ c ∈ q.isoSuffix.toList.head?, c.isDigit = false := by
    intro q c hc
    have hhead : (q.isoSuffix.toList.head?.all fun c => c.isDigit = false) = true := by
      cases q <;> decide +kernel
    exact of_decide_eq_true ((Option.all_eq_true _ _).mp hhead c hc)
  obtain ⟨rfl, hsuffix⟩ := toString_append_inj (hdigits quarter) (hdigits quarter') heq
  have hquarter : quarter = quarter' := by
    revert hsuffix
    cases quarter <;> cases quarter' <;> decide +kernel
  rw [hquarter]

private theorem strip_text (period : ReportPeriod) : strip period.text = period.text := by
  have hsuffix : ∀ q : Quarter, ∀ c ∈ q.suffix.toList, isSpace c = false := by
    intro q c hc
    have hchars : (q.suffix.toList.all fun c => isSpace c = false) = true := by
      cases q <;> decide +kernel
    exact of_decide_eq_true (List.all_eq_true.mp hchars c hc)
  apply strip_of_no_space
  intro c hc
  unfold text at hc
  rw [String.toList_append, Nat.toString_eq_ofList_toDigits, String.toList_ofList] at hc
  rcases List.mem_append.mp hc with hdigit | hc
  · have hd : c.isDigit = true := Nat.isDigit_of_mem_toDigits (by decide) (by decide) hdigit
    simp only [Char.isDigit, Bool.and_eq_true, decide_eq_true_eq, UInt32.le_iff_toNat_le] at hd
    have hbounds : 48 ≤ c.toNat ∧ c.toNat ≤ 57 := hd
    unfold isSpace
    simp only [Bool.or_eq_false_iff, Bool.and_eq_false_iff, decide_eq_false_iff_not, beq_eq_false_iff_ne]
    omega
  · exact hsuffix period.quarter c hc

private theorem text_ne_empty (period : ReportPeriod) : period.text ≠ "" := by
  intro hempty
  have hlist := congrArg String.toList hempty
  unfold text at hlist
  rw [String.toList_append, Nat.toString_eq_ofList_toDigits, String.toList_ofList] at hlist
  exact Nat.toDigits_ne_nil (List.append_eq_nil_iff.mp hlist).1

end ReportPeriod

namespace DisclosureTarget

variable {target target' : DisclosureTarget} {period period' : ReportPeriod} {code code' : String}

private theorem pipeline_injective (hpipeline : target.pipeline = target'.pipeline) :
    target = target' := by
  revert hpipeline
  cases target <;> cases target' <;> decide

private theorem dataset_mem (target : DisclosureTarget) : target.dataset ∈ datasetCatalog := by
  cases target <;> simp [dataset, datasetCatalog]

private theorem dataset_definition (target : DisclosureTarget) :
    datasetDefinition target.dataset.id = .ok target.dataset := by
  cases target <;> rfl

private theorem dataset_injective (hid : target.dataset.id = target'.dataset.id) :
    target = target' := by
  revert hid
  cases target <;> cases target' <;> decide

private theorem dataset_keyed (target : DisclosureTarget) :
    target.dataset.id ∉ delistDatasetIds := by
  cases target <;> decide

private theorem dataset_sorted (target : DisclosureTarget) : SortedByKey target.dataset := by
  cases target <;> exact ⟨by decide, by decide⟩

private theorem partitionValue_text (p : Pandas) (target : DisclosureTarget)
    (period : ReportPeriod) :
    partitionValue p target.dataset (some [("report_period", .text period.text)]) = .ok period.text := by
  have hcolumn : target.dataset.partitionColumn = some "report_period" := by cases target <;> rfl
  have hnormalize : normalizePartitionValue p target.dataset "report_period" (.text period.text) =
      .ok period.text := by
    have hcode : ("report_period" : String) ≠ "code" := by decide
    unfold normalizePartitionValue
    rw [if_neg fun hboth => hcode hboth.1]
    simp only [Pandas.str, period.strip_text, if_neg period.text_ne_empty]
  simp only [partitionValue, hcolumn, if_true, hnormalize]

/-- Where the codes of a period share its partition, they are told apart by a key column. -/
private theorem label_key (hmode : target.writeMode ≠ .replace) :
    ∃ column ∈ target.labelColumn, column ∈ target.dataset.uniqueColumns := by
  cases target with
  | yjygEm => exact absurd rfl hmode
  | reportDisclosure => exact absurd rfl hmode
  | yysjEm => exact ⟨"symbol", rfl, by decide⟩

/-- Where a partition is replaced, a run has one code for a period. -/
private theorem code_unique (hmode : target.writeMode = .replace) {market : Option String}
    (hcode : code ∈ target.codes market period) (hcode' : code' ∈ target.codes market period) :
    code = code' := by
  cases target with
  | yjygEm => rw [List.mem_singleton.mp hcode, List.mem_singleton.mp hcode']
  | reportDisclosure => rw [List.mem_singleton.mp hcode, List.mem_singleton.mp hcode']
  | yysjEm => cases hmode

end DisclosureTarget

/-! What a partition has from its fetches -/

/-- Two rows of one answer, whenever they were fetched. -/
def SameAnswer (r w : Row) : Prop := ∀ column, column ≠ "fetched_at" → r column = w column

/-- The rows hold the answer; where a partition is replaced, they are the answer. -/
structure HoldsAnswer (mode : WriteMode) (rows answer : List Row) : Prop where
  complete : ∀ w ∈ answer, ∃ r ∈ rows, SameAnswer r w
  exact : mode = .replace → ∀ r ∈ rows, ∃ w ∈ answer, SameAnswer r w

theorem HoldsAnswer.refl (mode : WriteMode) (rows : List Row) : HoldsAnswer mode rows rows :=
  ⟨fun w hw => ⟨w, hw, fun _ _ => rfl⟩, fun _ r hr => ⟨r, hr, fun _ _ => rfl⟩⟩

theorem HoldsAnswer.trans {mode : WriteMode} {stored fetched answer : List Row}
    (first : HoldsAnswer mode stored fetched) (second : HoldsAnswer mode fetched answer) :
    HoldsAnswer mode stored answer := by
  constructor
  · intro w hw
    obtain ⟨v, hv, hvw⟩ := second.complete w hw
    obtain ⟨r, hr, hrv⟩ := first.complete v hv
    exact ⟨r, hr, fun column hne => (hrv column hne).trans (hvw column hne)⟩
  · intro hmode r hr
    obtain ⟨v, hv, hrv⟩ := first.exact hmode r hr
    obtain ⟨w, hw, hvw⟩ := second.exact hmode v hv
    exact ⟨w, hw, fun column hne => (hrv column hne).trans (hvw column hne)⟩

/-- The fetch writes the rows that an answer for the code is looked for in. -/
def DisclosureFetch.Serves (fetch : DisclosureFetch) (target : DisclosureTarget)
    (period : ReportPeriod) (code : String) : Prop :=
  fetch.target = target ∧ fetch.period = period ∧
    (target.writeMode = .replace ∨ fetch.code = code)

instance (fetch : DisclosureFetch) (target : DisclosureTarget) (period : ReportPeriod)
    (code : String) : Decidable (fetch.Serves target period code) :=
  inferInstanceAs (Decidable (_ ∧ _ ∧ (_ ∨ _)))

/-- The last fetch for a code of a period; where a partition is replaced, the last one of the
period. -/
def lastFetch (fetches : List DisclosureFetch) (target : DisclosureTarget) (period : ReportPeriod)
    (code : String) : Option DisclosureFetch :=
  fetches.find? fun fetch => fetch.Serves target period code

theorem lastFetch_isSome {fetches : List DisclosureFetch} {fetch : DisclosureFetch}
    (hfetch : fetch ∈ fetches) :
    ∃ last, lastFetch fetches fetch.target fetch.period fetch.code = some last := by
  have hserves : fetch.Serves fetch.target fetch.period fetch.code := ⟨rfl, rfl, Or.inr rfl⟩
  exact Option.isSome_iff_exists.mp
    (List.find?_isSome.mpr ⟨fetch, hfetch, decide_eq_true hserves⟩)

theorem lastFetch_spec {fetches : List DisclosureFetch} {target : DisclosureTarget}
    {period : ReportPeriod} {code : String} {fetch : DisclosureFetch}
    (hlast : lastFetch fetches target period code = some fetch) :
    fetch ∈ fetches ∧ fetch.Serves target period code := by
  unfold lastFetch at hlast
  have hserves := List.find?_some hlast
  exact ⟨List.mem_of_find?_eq_some hlast, of_decide_eq_true hserves⟩

private theorem lastFetch_cons (fetch : DisclosureFetch) (fetches : List DisclosureFetch)
    (target : DisclosureTarget) (period : ReportPeriod) (code : String) :
    lastFetch (fetch :: fetches) target period code =
      if fetch.Serves target period code then some fetch
      else lastFetch fetches target period code := by
  unfold lastFetch
  rw [List.find?_cons]
  by_cases hserves : fetch.Serves target period code
  · simp [hserves]
  · simp [hserves]

/-- A partition holds what its last fetches brought, and every success in the checkpoints or
waiting for them is that of a fetch. -/
structure DisclosureInv (p : Pandas) (world : DisclosureWorld)
    (batch : List (CheckpointKey × String)) : Prop where
  well : WellStored p world.store
  recorded : ∀ entry, entry ∈ world.checkpoints ∨ entry ∈ batch → entry.2 = "success" →
    ∃ fetch ∈ world.fetches, entry.1 = fetch.target.key fetch.period fetch.code
  labelled : ∀ fetch ∈ world.fetches, ∀ column ∈ fetch.target.labelColumn,
    ∀ r ∈ fetch.rows, r column = .text fetch.code
  held : ∀ target period code fetch, lastFetch world.fetches target period code = some fetch →
    (∀ r ∈ fetch.rows, r ∈ content world.store target.dataset period.text) ∧
      (target.writeMode = .replace →
        ∀ r ∈ content world.store target.dataset period.text, r ∈ fetch.rows)

theorem DisclosureInv.holds {p : Pandas} {world : DisclosureWorld}
    {batch : List (CheckpointKey × String)} (inv : DisclosureInv p world batch)
    {target : DisclosureTarget} {period : ReportPeriod} {code : String} {fetch : DisclosureFetch}
    (hlast : lastFetch world.fetches target period code = some fetch) :
    HoldsAnswer target.writeMode (content world.store target.dataset period.text) fetch.rows := by
  obtain ⟨hstored, hexact⟩ := inv.held target period code fetch hlast
  exact ⟨fun w hw => ⟨w, hstored w hw, fun _ _ => rfl⟩,
    fun hmode r hr => ⟨r, hexact hmode r hr, fun _ _ => rfl⟩⟩

/-! Skipped tasks -/

section Skipped

variable {p : Pandas} {e : CheckpointEnv} {target : DisclosureTarget} {request : DisclosureRequest}
  {st : Store} {checkpoints : Dict CheckpointKey String} {period : ReportPeriod} {code : String}

theorem skipped_checkpoint
    (hskipped : (disclosureTask e target request st checkpoints period code).skipped = true) :
    ∃ entry ∈ checkpoints, entry.2 = "success" ∧
      entry.1.pipeline = target.pipeline ∧ entry.1.code = code ∧
      entry.1.endDate = period.endIso := by
  simp only [disclosureTask, shouldSkipCheckpoint] at hskipped
  split at hskipped
  case isTrue => cases hskipped
  case isFalse =>
    simp only [CheckpointLookup.pipelineCheckpointSucceeded,
      CheckpointLookup.checkpointSucceededForDate, Bool.or_eq_true, Bool.and_eq_true,
      beq_iff_eq] at hskipped
    rcases hskipped with ⟨-, hkey⟩ | ⟨-, hdate⟩
    · exact ⟨_, Dict.mem_of_get hkey, rfl, rfl, rfl, rfl⟩
    · rcases Dict.mem_of_mem_foldl_set _ _ (Dict.mem_of_get hdate) with ⟨entry, hentry, heq⟩ | hnil
      · obtain ⟨hfields, hstatus⟩ := Prod.mk.inj heq
        obtain ⟨hpipeline, -, hcode, hend⟩ : target.pipeline = entry.1.pipeline ∧
            target.dataset.id = entry.1.dataset ∧ code = entry.1.code ∧
            period.endIso = entry.1.endDate := by
          simpa [DisclosureTarget.key] using hfields
        exact ⟨entry, hentry, hstatus.symm, hpipeline.symm, hcode.symm, hend.symm⟩
      · cases hnil

/-- A skipped task has been fetched before. -/
theorem skipped_fetch {world : DisclosureWorld} {batch : List (CheckpointKey × String)}
    (inv : DisclosureInv p world batch)
    (hskipped : (disclosureTask e target request st world.checkpoints period code).skipped = true) :
    ∃ fetch ∈ world.fetches,
      fetch.target = target ∧ fetch.period = period ∧ fetch.code = code := by
  obtain ⟨entry, hentry, hstatus, hpipeline, hcode, hend⟩ := skipped_checkpoint hskipped
  obtain ⟨fetch, hfetch, hkey⟩ := inv.recorded entry (Or.inl hentry) hstatus
  rw [hkey] at hpipeline hcode hend
  have htarget : fetch.target = target := DisclosureTarget.pipeline_injective hpipeline
  have hperiod : fetch.period = period := ReportPeriod.endIso_injective hend
  have hfetched : fetch.code = code := hcode
  exact ⟨fetch, hfetch, htarget, hperiod, hfetched⟩

private theorem skipped_was_fetched {world : DisclosureWorld}
    {batch : List (CheckpointKey × String)}
    (inv : DisclosureInv p world batch)
    (hskipped : (disclosureTask e target request st world.checkpoints period code).skipped = true) :
    ∃ fetch, lastFetch world.fetches target period code = some fetch := by
  obtain ⟨fetch, hfetch, htarget, hperiod, hcode⟩ := skipped_fetch inv hskipped
  rw [← htarget, ← hperiod, ← hcode]
  exact lastFetch_isSome hfetch

end Skipped

/-! One task -/

namespace DisclosureRun

variable {p : Pandas} {h : Hashing} {run : DisclosureRun} {progress : DisclosureProgress}

/-- The rows of the answer to a task. -/
def answerRows (p : Pandas) (run : DisclosureRun) (period : ReportPeriod) (code : String)
    (selected : Frame) : List Row :=
  incomingRows p run.target.dataset (run.frame period code selected)

def answerFetch (p : Pandas) (run : DisclosureRun) (period : ReportPeriod) (code : String)
    (selected : Frame) : DisclosureFetch :=
  ⟨run.target, period, code, run.answerRows p period code selected⟩

private theorem answerRows_label {period : ReportPeriod} {code : String} {selected : Frame} :
    ∀ column ∈ run.target.labelColumn, ∀ r ∈ run.answerRows p period code selected,
      r column = .text code := by
  intro column hcolumn r hr
  unfold answerRows incomingRows at hr
  split at hr
  case h_2 => cases hr
  case h_1 coerced hcoerced =>
    rw [coercedFrame_rows hcoerced] at hr
    obtain ⟨w, hw, rfl⟩ := List.mem_map.mp hr
    obtain ⟨source, -, rfl⟩ := List.mem_map.mp hw
    have hcell : disclosureCell run.target period code (run.fetchedAt period code) source column =
        .text code := by
      have hne : column ≠ "report_period" ∧ column ≠ "period_end_date" := by
        revert hcolumn
        cases run.target with
        | yjygEm => simp [DisclosureTarget.labelColumn]
        | reportDisclosure =>
          rintro ⟨⟩
          decide
        | yysjEm =>
          rintro ⟨⟩
          decide
      unfold disclosureCell
      rw [if_neg hne.1, if_neg hne.2, if_pos (Eq.symm hcolumn)]
    have hfield : (⟨column, .string⟩ : Field) ∈ run.target.dataset.schema ∧
        column ≠ "adjustment" := by
      revert hcolumn
      cases run.target with
      | yjygEm => simp [DisclosureTarget.labelColumn]
      | reportDisclosure =>
        rintro ⟨⟩
        decide
      | yysjEm =>
        rintro ⟨⟩
        decide
    have hsame := @coercedRow_of_accepts p _ (wellFormed_of_mem run.target.dataset_mem)
      (run.frame period code selected) rfl ⟨column, .string⟩ hfield.1 hfield.2
      (disclosureCell run.target period code (run.fetchedAt period code) source)
      (by rw [hcell]; rfl)
    exact hsame.trans hcell

private theorem writeAnswer_partition {period : ReportPeriod} {code : String} {selected : Frame} :
    PartitionOutcome run.target.dataset progress.store
      (replacedFile p (run.env period code) run.target.dataset (run.frame period code selected)
        [("report_period", .text period.text)] run.target.writeMode progress.store)
      (run.writeAnswer progress p h period code selected) := by
  have hdefinition := run.target.dataset_definition
  have hmode : run.writeAnswer progress p h period code selected =
      writeDataset p h (run.env period code) run.target.dataset.id (run.frame period code selected)
        (some [("report_period", .text period.text)]) (some run.target.writeMode) false
        progress.store := by
    unfold writeAnswer
    rw [writeDataset_eq _ hdefinition, writeDataset_eq _ hdefinition]
    rfl
  rw [hmode]
  exact writeDataset_partition hdefinition

private theorem written_fetches {period : ReportPeriod} {code : String} {selected : Frame} :
    run.writtenFetches progress p period code selected = progress.fetches ∨
      run.writtenFetches progress p period code selected =
        run.answerFetch p period code selected :: progress.fetches := by
  unfold writtenFetches
  split
  · exact Or.inr rfl
  · exact Or.inl rfl

/-- The world after the write of an answer. -/
def writtenWorld (p : Pandas) (h : Hashing) (run : DisclosureRun) (progress : DisclosureProgress)
    (period : ReportPeriod) (code : String) (selected : Frame) : DisclosureWorld where
  store := (run.writeAnswer progress p h period code selected).2
  checkpoints := progress.checkpoints
  fetches := run.writtenFetches progress p period code selected

private theorem inv_written (inv : DisclosureInv p progress.toDisclosureWorld progress.batch)
    (period : ReportPeriod) (code : String) (selected : Frame) :
    DisclosureInv p (run.writtenWorld p h progress period code selected) progress.batch := by
  have hwell : WellStored p (run.writeAnswer progress p h period code selected).2 :=
    @wellStored_callStep p h progress.store _ ⟨run.env period code, run.target.dataset.id,
      run.frame period code selected, some [("report_period", .text period.text)], run.target.mode,
      false⟩ inv.well rfl
  have hother : ∀ target : DisclosureTarget, target ≠ run.target → ∀ value,
      content (run.writeAnswer progress p h period code selected).2 target.dataset value =
        content progress.store target.dataset value := by
    intro target hne value
    have hid : target.dataset.id ≠ run.target.dataset.id :=
      fun heq => hne (DisclosureTarget.dataset_injective heq)
    simp only [content, writeAnswer, writeDataset_files_of_ne hid value]
  have hfiles := (@writeAnswer_partition p h run progress period code selected).files
  cases hreplaced : replacedFile p (run.env period code) run.target.dataset
      (run.frame period code selected) [("report_period", .text period.text)] run.target.writeMode
      progress.store with
  | none =>
    have hfetches : run.writtenFetches progress p period code selected = progress.fetches := by
      simp only [writtenFetches, hreplaced]
    rw [hreplaced] at hfiles
    refine ⟨hwell, ?_, ?_, ?_⟩
    · intro entry hentry hstatus
      simp only [writtenWorld, hfetches]
      exact inv.recorded entry hentry hstatus
    · simp only [writtenWorld, hfetches]
      exact inv.labelled
    · intro target period' code' fetch hlast
      have hcontent : content (run.writtenWorld p h progress period code selected).store
          target.dataset period'.text = content progress.store target.dataset period'.text := by
        by_cases heq : target = run.target
        · subst heq
          simp only [content, writtenWorld, hfiles, filesAfter]
        · exact hother target heq _
      simp only [writtenWorld, hfetches] at hlast
      rw [hcontent]
      exact inv.held target period' code' fetch hlast
  | some file =>
    obtain ⟨value, rows⟩ := file
    have hmem := run.target.dataset_mem
    have hvalue := (replacedFile_spec hmem inv.well hreplaced).1
    rw [DisclosureTarget.partitionValue_text] at hvalue
    obtain rfl := Except.ok.inj hvalue
    have hfetches : run.writtenFetches progress p period code selected =
        run.answerFetch p period code selected :: progress.fetches := by
      simp only [writtenFetches, hreplaced]
      rfl
    rw [hreplaced] at hfiles
    refine ⟨hwell, ?_, ?_, ?_⟩
    · intro entry hentry hstatus
      obtain ⟨fetch, hfetch, hkey⟩ := inv.recorded entry hentry hstatus
      simp only [writtenWorld, hfetches]
      exact ⟨fetch, List.mem_cons_of_mem _ hfetch, hkey⟩
    · intro fetch hfetch
      simp only [writtenWorld, hfetches] at hfetch
      rcases List.mem_cons.mp hfetch with rfl | hfetch
      · exact answerRows_label
      · exact inv.labelled fetch hfetch
    · intro target period' code' fetch hlast
      simp only [writtenWorld, hfetches, lastFetch_cons] at hlast
      have hrows : content (run.writtenWorld p h progress period code selected).store
          run.target.dataset period.text = rows := by
        simp only [content, writtenWorld, hfiles, filesAfter, if_true]
        rfl
      split at hlast
      case isTrue hserves =>
        obtain ⟨htarget, hperiod, -⟩ := hserves
        obtain rfl := Option.some.inj hlast
        obtain rfl : target = run.target := htarget.symm
        obtain rfl : period' = period := hperiod.symm
        rw [hrows]
        refine ⟨incoming_mem_replacedFile hmem run.target.dataset_keyed run.target.dataset_sorted
          inv.well hreplaced, fun hmode r hr => ?_⟩
        rcases mem_replacedFile hmem inv.well hreplaced r hr with hnew | ⟨hnot, -⟩
        · exact hnew
        · exact absurd hmode hnot
      case isFalse hserves =>
        obtain ⟨hstored, hexact⟩ := inv.held target period' code' fetch hlast
        by_cases htarget : target = run.target
        · subst htarget
          by_cases hperiod : period' = period
          · -- another code of the partition, whose rows have other keys
            subst hperiod
            have hmode : run.target.writeMode ≠ .replace :=
              fun hmode => hserves ⟨rfl, rfl, Or.inl hmode⟩
            have hcode : code ≠ fetch.code := by
              obtain ⟨-, -, -, hreplace | hfetch⟩ := lastFetch_spec hlast
              · exact absurd hreplace hmode
              · rintro rfl
                exact hserves ⟨rfl, rfl, Or.inr hfetch⟩
            rw [hrows]
            refine ⟨fun r hr => ?_, fun hreplace => absurd hreplace hmode⟩
            apply kept_mem_replacedFile hmem run.target.dataset_keyed run.target.dataset_sorted
              inv.well hreplaced hmode (hstored r hr)
            intro hincoming
            obtain ⟨w, hw, hkey⟩ := List.mem_map.mp hincoming
            obtain ⟨column, hlabel, hunique⟩ := DisclosureTarget.label_key hmode
            have hcell : w column = r column := List.map_inj_left.mp hkey column hunique
            obtain ⟨hmem', hfetch, -⟩ := lastFetch_spec hlast
            rw [inv.labelled fetch hmem' column (by rw [hfetch]; exact hlabel) r hr,
              answerRows_label column hlabel w hw] at hcell
            exact hcode (Cell.text.inj hcell)
          · have hcontent : content (run.writtenWorld p h progress period code selected).store
                run.target.dataset period'.text =
                  content progress.store run.target.dataset period'.text := by
              have hne : period'.text ≠ period.text :=
                fun heq => hperiod (ReportPeriod.text_injective heq)
              simp only [content, writtenWorld, hfiles, filesAfter, if_neg hne]
            rw [hcontent]
            exact ⟨hstored, hexact⟩
        · rw [show content (run.writtenWorld p h progress period code selected).store target.dataset
            period'.text = content progress.store target.dataset period'.text
            from hother target htarget _]
          exact ⟨hstored, hexact⟩

/-- Records leave the files and the fetches. -/
structure Recorded (p : Pandas) (progress recorded : DisclosureProgress) : Prop where
  inv : DisclosureInv p recorded.toDisclosureWorld recorded.batch
  fetches : recorded.fetches = progress.fetches

theorem Recorded.trans {first second third : DisclosureProgress} (ha : Recorded p first second)
    (hb : Recorded p second third) : Recorded p first third :=
  ⟨hb.inv, hb.fetches.trans ha.fetches⟩

private theorem flush_spec (inv : DisclosureInv p progress.toDisclosureWorld progress.batch) :
    Recorded p progress (run.flush progress).2 := by
  unfold flush
  split_ifs
  · exact ⟨inv, rfl⟩
  · exact ⟨⟨inv.well, inv.recorded, inv.labelled, inv.held⟩, rfl⟩
  · refine ⟨⟨inv.well, ?_, inv.labelled, inv.held⟩, rfl⟩
    intro entry hentry hstatus
    rcases hentry with hstored | hwaiting
    · rcases Dict.mem_of_mem_foldl_set Prod.fst Prod.snd hstored with ⟨row, hrow, heq⟩ | hold
      · exact inv.recorded entry (Or.inr (heq ▸ hrow)) hstatus
      · exact inv.recorded entry (Or.inl hold) hstatus
    · cases hwaiting

private theorem addRow_spec (inv : DisclosureInv p progress.toDisclosureWorld progress.batch)
    {key : CheckpointKey} {status : String}
    (hfetched : status = "success" →
      ∃ fetch ∈ progress.fetches, key = fetch.target.key fetch.period fetch.code) :
    Recorded p progress (run.addRow progress key status).2 := by
  have hadded : DisclosureInv p progress.toDisclosureWorld (progress.batch ++ [(key, status)]) := by
    refine ⟨inv.well, ?_, inv.labelled, inv.held⟩
    intro entry hentry hstatus
    rcases hentry with hstored | hwaiting
    · exact inv.recorded entry (Or.inl hstored) hstatus
    · rcases List.mem_append.mp hwaiting with hold | hnew
      · exact inv.recorded entry (Or.inr hold) hstatus
      · obtain rfl := List.mem_singleton.mp hnew
        exact hfetched hstatus
  unfold addRow
  simp only
  split_ifs
  · have hflushed := @flush_spec p run { progress with batch := progress.batch ++ [(key, status)] }
      hadded
    exact ⟨hflushed.inv, hflushed.fetches⟩
  · exact ⟨hadded, rfl⟩

private theorem recordFailure_spec (inv : DisclosureInv p progress.toDisclosureWorld progress.batch)
    (key : CheckpointKey) :
    Recorded p progress (run.recordFailure progress key).2 ∧
      ∀ statuses, (run.recordFailure progress key).1 = some statuses → "failed" ∈ statuses := by
  have hadd := @addRow_spec p run progress inv key "failed"
    fun heq => absurd heq (by decide)
  unfold recordFailure
  rcases hout : run.addRow progress key "failed" with ⟨returned, recorded⟩
  rw [hout] at hadd
  cases returned with
  | true =>
    refine ⟨hadd, fun statuses hstatuses => ?_⟩
    rw [← Option.some.inj hstatuses]
    exact List.mem_singleton_self _
  | false => exact ⟨hadd, fun statuses hstatuses => by cases hstatuses⟩

private theorem recordSuccess_spec (inv : DisclosureInv p progress.toDisclosureWorld progress.batch)
    {key : CheckpointKey}
    (hfetched : ∃ fetch ∈ progress.fetches, key = fetch.target.key fetch.period fetch.code) :
    Recorded p progress (run.recordSuccess progress key).2 := by
  have hadd := @addRow_spec p run progress inv key "success" fun _ => hfetched
  unfold recordSuccess
  rcases hout : run.addRow progress key "success" with ⟨returned, recorded⟩
  rw [hout] at hadd
  cases returned with
  | true => exact hadd
  | false => exact hadd.trans (recordFailure_spec hadd.inv key).1

/-- What the result of a task leaves: it may have been fetched, and it has been unless a failure
is recorded or the task is skipped. -/
structure TaskOutcome (p : Pandas) (run : DisclosureRun) (progress : DisclosureProgress)
    (task : DisclosureTask) (out : Option (List String) × DisclosureProgress) : Prop where
  inv : DisclosureInv p out.2.toDisclosureWorld out.2.batch
  fetches : out.2.fetches = progress.fetches ∨
    ∃ selected, run.answer task.period task.code = .ok selected ∧
      out.2.fetches = run.answerFetch p task.period task.code selected :: progress.fetches
  fetched : ∀ statuses, out.1 = some statuses → "failed" ∉ statuses → task.skipped = false →
    ∃ selected, run.answer task.period task.code = .ok selected ∧
      out.2.fetches = run.answerFetch p task.period task.code selected :: progress.fetches

private theorem recordResult_spec (inv : DisclosureInv p progress.toDisclosureWorld progress.batch)
    (task : DisclosureTask) :
    TaskOutcome p run progress task (run.recordResult progress p h task) := by
  unfold recordResult
  split
  case isTrue hskipped =>
    refine ⟨inv, Or.inl rfl, fun _ _ _ hnot => ?_⟩
    rw [hskipped] at hnot
    cases hnot
  case isFalse =>
    simp only
    cases hanswer : run.answer task.period task.code with
    | error e =>
      obtain ⟨hrecorded, hfailed⟩ :=
        @recordFailure_spec p run progress inv (run.target.key task.period task.code)
      exact ⟨hrecorded.inv, Or.inl hrecorded.fetches,
        fun statuses hstatuses hnot _ => absurd (hfailed statuses hstatuses) hnot⟩
    | ok selected =>
      have hwritten := @inv_written p h run progress inv task.period task.code selected
      simp only
      rcases hout : run.writeAnswer progress p h task.period task.code selected with ⟨result, st⟩
      have hstored : DisclosureInv p ⟨st, progress.checkpoints,
          run.writtenFetches progress p task.period task.code selected⟩ progress.batch := by
        have hworld := hwritten
        unfold writtenWorld at hworld
        rw [hout] at hworld
        exact hworld
      cases result with
      | error e =>
        obtain ⟨hrecorded, hfailed⟩ := @recordFailure_spec p run { progress with
          store := st
          fetches := run.writtenFetches progress p task.period task.code selected } hstored
          (run.target.key task.period task.code)
        refine ⟨hrecorded.inv, ?_,
          fun statuses hstatuses hnot _ => absurd (hfailed statuses hstatuses) hnot⟩
        rcases @written_fetches p run progress task.period task.code selected with hsame | hnew
        · exact Or.inl (hrecorded.fetches.trans hsame)
        · exact Or.inr ⟨selected, hanswer, hrecorded.fetches.trans hnew⟩
      | ok u =>
        -- a write that returns has replaced the file
        have hnew : run.writtenFetches progress p task.period task.code selected =
            run.answerFetch p task.period task.code selected :: progress.fetches := by
          have hpartition := @writeAnswer_partition p h run progress task.period task.code selected
          rw [hout] at hpartition
          obtain ⟨file, hfile⟩ := hpartition.returned rfl
          unfold writtenFetches
          rw [hfile]
          rfl
        have hrecorded := @recordSuccess_spec p run { progress with
          store := st
          fetches := run.writtenFetches progress p task.period task.code selected } hstored
          (run.target.key task.period task.code)
          ⟨run.answerFetch p task.period task.code selected, by
            rw [hnew]
            exact List.mem_cons_self, rfl⟩
        exact ⟨hrecorded.inv, Or.inr ⟨selected, hanswer, hrecorded.fetches.trans hnew⟩,
          fun _ _ _ _ => ⟨selected, hanswer, hrecorded.fetches.trans hnew⟩⟩

/-! A run -/

/-- The last fetch for a task holds the answer to it. -/
def Settled (p : Pandas) (run : DisclosureRun) (fetches : List DisclosureFetch)
    (task : DisclosureTask) : Prop :=
  ∀ selected, run.answer task.period task.code = .ok selected →
    ∃ fetch, lastFetch fetches run.target task.period task.code = some fetch ∧
      HoldsAnswer run.target.writeMode fetch.rows (run.answerRows p task.period task.code selected)

/-- Tasks that replace one partition have one code. -/
def OneCode (run : DisclosureRun) (tasks : List DisclosureTask) : Prop :=
  run.target.writeMode = .replace → ∀ task ∈ tasks, ∀ other ∈ tasks,
    task.period = other.period → task.code = other.code

private theorem settled_answer {task : DisclosureTask} {selected : Frame}
    {fetches : List DisclosureFetch}
    (hanswer : run.answer task.period task.code = .ok selected) :
    run.Settled p (run.answerFetch p task.period task.code selected :: fetches) task := by
  intro selected' hselected
  rw [hanswer] at hselected
  obtain rfl := Except.ok.inj hselected
  refine ⟨run.answerFetch p task.period task.code selected, ?_, .refl _ _⟩
  have hserves : (run.answerFetch p task.period task.code selected).Serves run.target task.period
      task.code := ⟨rfl, rfl, Or.inr rfl⟩
  rw [lastFetch_cons, if_pos hserves]

theorem Settled.later {task other : DisclosureTask} {fetches : List DisclosureFetch}
    (hsettled : run.Settled p fetches task)
    (hcode : run.target.writeMode = .replace → task.period = other.period →
      task.code = other.code) {selected : Frame}
    (hanswer : run.answer other.period other.code = .ok selected) :
    run.Settled p (run.answerFetch p other.period other.code selected :: fetches) task := by
  by_cases hserves : (run.answerFetch p other.period other.code selected).Serves run.target
      task.period task.code
  · have hperiod : other.period = task.period := hserves.2.1
    have hsame : other.code = task.code := by
      rcases hserves.2.2 with hreplace | hfetch
      · exact (hcode hreplace hperiod.symm).symm
      · exact hfetch
    have htask := @settled_answer p run other selected fetches hanswer
    unfold Settled at htask ⊢
    rw [← hperiod, ← hsame]
    exact htask
  · intro selected' hselected
    rw [lastFetch_cons, if_neg hserves]
    exact hsettled selected' hselected

/-- The tasks of a run that has recorded no failure are settled, if they were fetched or were
settled before. -/
private theorem recordResults_spec {all : List DisclosureTask} (hcode : run.OneCode all)
    (tasks : List DisclosureTask) (hsub : ∀ task ∈ tasks, task ∈ all)
    (inv : DisclosureInv p progress.toDisclosureWorld progress.batch) :
    let out := run.recordResults p h progress tasks
    DisclosureInv p out.2.toDisclosureWorld out.2.batch ∧
      ∀ statuses, out.1 = some statuses → "failed" ∉ statuses →
        (∀ task ∈ all, run.Settled p progress.fetches task → run.Settled p out.2.fetches task) ∧
        ∀ task ∈ tasks, task.skipped = false → run.Settled p out.2.fetches task := by
  induction tasks generalizing progress with
  | nil => exact ⟨inv, fun _ _ _ => ⟨fun _ _ hsettled => hsettled, fun task htask => by cases htask⟩⟩
  | cons task tasks ih =>
    have houtcome := @recordResult_spec p h run progress inv task
    have hkept : ∀ recorded : DisclosureProgress,
        (recorded.fetches = progress.fetches ∨
          ∃ selected, run.answer task.period task.code = .ok selected ∧
            recorded.fetches = run.answerFetch p task.period task.code selected :: progress.fetches) →
        ∀ other ∈ all, run.Settled p progress.fetches other →
          run.Settled p recorded.fetches other := by
      intro recorded hfetches other hother hsettled
      rcases hfetches with hsame | ⟨selected, hanswer, hnew⟩
      · rw [hsame]
        exact hsettled
      · rw [hnew]
        exact hsettled.later (fun hmode => hcode hmode other hother task (hsub task List.mem_cons_self))
          hanswer
    unfold recordResults
    rcases hout : run.recordResult progress p h task with ⟨statuses?, recorded⟩
    rw [hout] at houtcome
    cases statuses? with
    | none => exact ⟨houtcome.inv, fun statuses hstatuses => by cases hstatuses⟩
    | some first =>
      obtain ⟨hinv, hrest⟩ :=
        @ih recorded (fun other hother => hsub other (List.mem_cons_of_mem _ hother)) houtcome.inv
      refine ⟨hinv, fun statuses hstatuses hfailed => ?_⟩
      obtain ⟨later, hlater, rfl⟩ := Option.map_eq_some_iff.mp hstatuses
      have hfirst : "failed" ∉ first := fun hmem => hfailed (List.mem_append_left _ hmem)
      obtain ⟨hall, hfresh⟩ :=
        hrest later hlater fun hmem => hfailed (List.mem_append_right _ hmem)
      refine ⟨fun other hother hsettled => hall other hother
        (hkept recorded houtcome.fetches other hother hsettled), ?_⟩
      intro other hother hnot
      rcases List.mem_cons.mp hother with rfl | hmem
      · obtain ⟨selected, hanswer, hnew⟩ := houtcome.fetched first rfl hfirst hnot
        apply hall other (hsub other List.mem_cons_self)
        have hnew' : recorded.fetches =
            run.answerFetch p other.period other.code selected :: progress.fetches := hnew
        rw [hnew']
        exact settled_answer hanswer
      · exact hfresh other hmem hnot

theorem planned_task {e : CheckpointEnv} {world : DisclosureWorld} {tasks : List DisclosureTask}
    (hplan : planDisclosure e run.target run.request world.store world.checkpoints = .ok tasks) :
    ∀ task ∈ tasks, task.code ∈ run.target.codes run.request.market task.period ∧
      task = disclosureTask e run.target run.request world.store world.checkpoints task.period
        task.code := by
  obtain ⟨periods, -, hplan⟩ := Checked.bind_eq_ok.mp hplan
  intro task htask
  have hall : task ∈ periods.flatMap fun period =>
      (run.target.codes run.request.market period).map
        (disclosureTask e run.target run.request world.store world.checkpoints period) := by
    rw [← Except.ok.inj hplan] at htask
    split at htask
    case h_1 n hn => exact List.mem_of_mem_take htask
    case h_2 => exact htask
  obtain ⟨period, -, htask⟩ := List.mem_flatMap.mp hall
  obtain ⟨code, hcode, rfl⟩ := List.mem_map.mp htask
  exact ⟨hcode, rfl⟩

private theorem oneCode_planned {e : CheckpointEnv} {world : DisclosureWorld}
    {tasks : List DisclosureTask}
    (hplan : planDisclosure e run.target run.request world.store world.checkpoints = .ok tasks) :
    run.OneCode tasks := by
  intro hmode task htask other hother hperiod
  have hcode := (planned_task hplan task htask).1
  have hcode' := (planned_task hplan other hother).1
  rw [← hperiod] at hcode'
  exact DisclosureTarget.code_unique hmode hcode hcode'

/-- The answer to each task that the run skips is in the rows of its last fetch. -/
def SkipsUnchanged (p : Pandas) (e : CheckpointEnv) (run : DisclosureRun)
    (world : DisclosureWorld) : Prop :=
  ∀ tasks, planDisclosure e run.target run.request world.store world.checkpoints = .ok tasks →
    ∀ task ∈ tasks, task.skipped = true → ∀ selected,
      run.answer task.period task.code = .ok selected → ∀ fetch,
        lastFetch world.fetches run.target task.period task.code = some fetch →
        HoldsAnswer run.target.writeMode fetch.rows
          (run.answerRows p task.period task.code selected)

/-- A run keeps the invariant. If it ends without a failure, its tasks are settled, the skipped
ones as far as their answers are unchanged. -/
theorem perform_spec {e : CheckpointEnv} {world : DisclosureWorld}
    (inv : DisclosureInv p world []) :
    DisclosureInv p (run.perform p h e world).2 [] ∧
      ∀ statuses, (run.perform p h e world).1 = some statuses → "failed" ∉ statuses →
        run.SkipsUnchanged p e world → ∃ tasks,
          planDisclosure e run.target run.request world.store world.checkpoints = .ok tasks ∧
          ∀ task ∈ tasks, run.Settled p (run.perform p h e world).2.fetches task := by
  have hdropped : ∀ {progress : DisclosureProgress},
      DisclosureInv p progress.toDisclosureWorld progress.batch →
        DisclosureInv p progress.toDisclosureWorld [] := by
    intro progress hinv
    refine ⟨hinv.well, ?_, hinv.labelled, hinv.held⟩
    intro entry hentry hstatus
    rcases hentry with hstored | hnil
    · exact hinv.recorded entry (Or.inl hstored) hstatus
    · cases hnil
  unfold perform
  cases hplan : planDisclosure e run.target run.request world.store world.checkpoints with
  | error e => exact ⟨inv, fun statuses hstatuses => by cases hstatuses⟩
  | ok tasks =>
    obtain ⟨hinv, hsettled⟩ := @recordResults_spec p h run
      { world with batch := [], flushes := 0 } tasks (oneCode_planned hplan) tasks (fun _ h => h) inv
    simp only
    rcases hout : run.recordResults p h { world with batch := [], flushes := 0 } tasks with
      ⟨result, recorded⟩
    rw [hout] at hinv hsettled
    cases result with
    | none => exact ⟨hdropped hinv, fun statuses hstatuses => by cases hstatuses⟩
    | some statuses =>
      have hflush := @flush_spec p run recorded hinv
      simp only
      rcases hend : run.flush recorded with ⟨returned, finished⟩
      rw [hend] at hflush
      cases returned with
      | false => exact ⟨hdropped hflush.inv, fun statuses hstatuses => by cases hstatuses⟩
      | true =>
        refine ⟨hdropped hflush.inv, fun statuses' hstatuses hfailed hunchanged => ⟨tasks, rfl, ?_⟩⟩
        obtain rfl := Option.some.inj hstatuses
        obtain ⟨hkept, hfresh⟩ := hsettled statuses rfl hfailed
        intro task htask
        have hfetches : finished.fetches = recorded.fetches := hflush.fetches
        rw [hfetches]
        by_cases hskipped : task.skipped = true
        · apply hkept task htask
          intro selected hanswer
          have htask' := (planned_task hplan task htask).2
          rw [htask'] at hskipped
          obtain ⟨fetch, hlast⟩ := skipped_was_fetched inv hskipped
          rw [← htask'] at hskipped
          exact ⟨fetch, hlast,
            hunchanged tasks hplan task htask hskipped selected hanswer fetch hlast⟩
        · exact hfresh task htask (Bool.eq_false_iff.mpr hskipped)

private theorem recordResults_fetches {good : DisclosureFetch → Prop}
    {progress : DisclosureProgress}
    (tasks : List DisclosureTask)
    (hgood : ∀ task ∈ tasks, ∀ selected, run.answer task.period task.code = .ok selected →
      good (run.answerFetch p task.period task.code selected))
    (inv : DisclosureInv p progress.toDisclosureWorld progress.batch) :
    ∀ fetch ∈ (run.recordResults p h progress tasks).2.fetches,
      fetch ∈ progress.fetches ∨ good fetch := by
  induction tasks generalizing progress with
  | nil => exact fun fetch hfetch => Or.inl hfetch
  | cons task tasks ih =>
    have houtcome := @recordResult_spec p h run progress inv task
    have hfirst : ∀ fetch ∈ (run.recordResult progress p h task).2.fetches,
        fetch ∈ progress.fetches ∨ good fetch := by
      intro fetch hfetch
      rcases houtcome.fetches with hsame | ⟨selected, hanswer, hnew⟩
      · rw [hsame] at hfetch
        exact Or.inl hfetch
      · rw [hnew] at hfetch
        rcases List.mem_cons.mp hfetch with rfl | hold
        · exact Or.inr (hgood task List.mem_cons_self selected hanswer)
        · exact Or.inl hold
    unfold recordResults
    rcases hout : run.recordResult progress p h task with ⟨statuses?, recorded⟩
    rw [hout] at houtcome hfirst
    cases statuses? with
    | none => exact hfirst
    | some statuses =>
      intro fetch hfetch
      have hrest := @ih recorded (fun other hother => hgood other (List.mem_cons_of_mem _ hother))
        houtcome.inv fetch hfetch
      rcases hrest with hrecorded | hfetched
      · exact hfirst fetch hrecorded
      · exact Or.inr hfetched

theorem perform_fetches {e : CheckpointEnv} {good : DisclosureFetch → Prop}
    {world : DisclosureWorld} (inv : DisclosureInv p world [])
    (hgood : ∀ tasks,
      planDisclosure e run.target run.request world.store world.checkpoints = .ok tasks →
      ∀ task ∈ tasks, ∀ selected, run.answer task.period task.code = .ok selected →
        good (run.answerFetch p task.period task.code selected)) :
    ∀ fetch ∈ (run.perform p h e world).2.fetches, fetch ∈ world.fetches ∨ good fetch := by
  unfold perform
  cases hplan : planDisclosure e run.target run.request world.store world.checkpoints with
  | error e => exact fun fetch hfetch => Or.inl hfetch
  | ok tasks =>
    have hrun := @recordResults_fetches p h run good { world with batch := [], flushes := 0 } tasks
      (hgood tasks hplan) inv
    have hinv := (@recordResults_spec p h run { world with batch := [], flushes := 0 } tasks
      (oneCode_planned hplan) tasks (fun _ h => h) inv).1
    simp only
    rcases hout : run.recordResults p h { world with batch := [], flushes := 0 } tasks with
      ⟨result, recorded⟩
    rw [hout] at hrun hinv
    cases result with
    | none => exact hrun
    | some statuses =>
      have hflush := (@flush_spec p run recorded hinv).fetches
      simp only
      rcases hend : run.flush recorded with ⟨returned, finished⟩
      rw [hend] at hflush
      have hfetches : finished.fetches = recorded.fetches := hflush
      cases returned with
      | false => exact fun fetch hfetch => hrun fetch (hfetches ▸ hfetch)
      | true => exact fun fetch hfetch => hrun fetch (hfetches ▸ hfetch)

end DisclosureRun

/-! Histories -/

def performAll (p : Pandas) (h : Hashing) (e : CheckpointEnv) (runs : List DisclosureRun)
    (world : DisclosureWorld) : DisclosureWorld :=
  runs.foldl (fun world run => (run.perform p h e world).2) world

section History

variable {p : Pandas} {h : Hashing} {e : CheckpointEnv}

theorem inv_performAll {runs : List DisclosureRun} {world : DisclosureWorld}
    (inv : DisclosureInv p world []) : DisclosureInv p (performAll p h e runs world) [] := by
  induction runs generalizing world with
  | nil => exact inv
  | cons run runs ih => exact ih (DisclosureRun.perform_spec inv).1

theorem inv_start {st : Store} (hst : WellStored p st) : DisclosureInv p ⟨st, [], []⟩ [] := by
  refine ⟨hst, ?_, ?_, ?_⟩
  · intro entry hentry
    rcases hentry with hnil | hnil <;> cases hnil
  · intro fetch hfetch
    cases hfetch
  · intro target period code fetch hlast
    cases hlast

/-- Where a run that was not cut ends without a failure, and the answers to the tasks that it
skips are unchanged since their last fetch, every period of its window holds its answers. -/
theorem window_holds_answers {st : Store} (hst : WellStored p st) {runs : List DisclosureRun}
    {run : DisclosureRun} {statuses : List String} {after : DisclosureWorld}
    (ended : run.perform p h e (performAll p h e runs ⟨st, [], []⟩) = (some statuses, after))
    (faultless : "failed" ∉ statuses) (uncut : run.request.maxTasks = none)
    (unchanged : run.SkipsUnchanged p e (performAll p h e runs ⟨st, [], []⟩))
    {periods : List ReportPeriod} (window : run.target.resolvePeriods run.request = .ok periods)
    {period : ReportPeriod} (hperiod : period ∈ periods) {code : String}
    (hcode : code ∈ run.target.codes run.request.market period) {selected : Frame}
    (hanswer : run.answer period code = .ok selected) :
    HoldsAnswer run.target.writeMode (content after.store run.target.dataset period.text)
      (run.answerRows p period code selected) := by
  have inv : DisclosureInv p (performAll p h e runs ⟨st, [], []⟩) [] := inv_performAll (inv_start hst)
  obtain ⟨hinv, hends⟩ := @DisclosureRun.perform_spec p h run e _ inv
  rw [ended] at hinv hends
  obtain ⟨tasks, hplan, hsettled⟩ := hends statuses rfl faultless unchanged
  have htask : disclosureTask e run.target run.request (performAll p h e runs ⟨st, [], []⟩).store
      (performAll p h e runs ⟨st, [], []⟩).checkpoints period code ∈ tasks := by
    unfold planDisclosure at hplan
    rw [window] at hplan
    simp only [uncut] at hplan
    rw [← Except.ok.inj hplan]
    exact List.mem_flatMap.mpr ⟨period, hperiod, List.mem_map_of_mem hcode⟩
  obtain ⟨fetch, hlast, hfetch⟩ := hsettled _ htask selected hanswer
  exact (hinv.holds hlast).trans hfetch

end History

/-! A forecast that changes on the day after it was fetched -/

def plainCheckpoints : CheckpointEnv := ⟨plainReader, .stable _, .stable _⟩

def forecastOf (kind : String) : Frame where
  columns := ["code", "name", "forecast_type"]
  dtype _ := .object
  rows := [rowOf [("code", .text "600000"), ("name", .text "浦发银行"),
    ("forecast_type", .text kind)]]

/-- A run of the forecasts in April 2024 whose answers are of one kind. -/
def forecastRun (day : ℕ) (kind : String) : DisclosureRun where
  target := .yjygEm
  request := { today := civilDate 2024 4 day }
  answer _ _ := .ok (forecastOf kind)
  fetchedAt _ _ := 0
  env _ _ := .plain true

def noDisclosures : DisclosureWorld := ⟨.empty, [], []⟩

def forecastsFetched : DisclosureWorld :=
  performAll .plain .plain plainCheckpoints [forecastRun 10 "预增"] noDisclosures

/-- The forecasts are those of the day before: the run skips its periods. -/
theorem forecast_holds_after_second_run :
    let second := (forecastRun 11 "预增").perform .plain .plain plainCheckpoints forecastsFetched
    second.1 = some [] ∧
      HoldsAnswer .replace
        (content second.2.store akshareYjygEmDataset (ReportPeriod.mk 2024 .first).text)
        ((forecastRun 11 "预增").answerRows .plain ⟨2024, .first⟩ "2024一季" (forecastOf "预增")) := by
  have hstart : WellStored .plain .empty := wellStored_empty .plain
  have hstatuses : ((forecastRun 11 "预增").perform .plain .plain plainCheckpoints
      forecastsFetched).1 = some [] := by decide +kernel
  have hwindow : DisclosureTarget.yjygEm.resolvePeriods (forecastRun 11 "预增").request =
      .ok [⟨2024, .first⟩, ⟨2024, .half⟩, ⟨2024, .third⟩, ⟨2024, .annual⟩, ⟨2025, .first⟩] := by
    decide +kernel
  have hunchanged : (forecastRun 11 "预增").SkipsUnchanged .plain plainCheckpoints
      forecastsFetched := by
    intro tasks _ task _ _ selected hanswer fetch hlast
    obtain ⟨hmem, -, hperiod, -⟩ := lastFetch_spec hlast
    -- every fetch of the first run is of the same forecast
    have hfirst := @DisclosureRun.perform_fetches .plain .plain (forecastRun 10 "预增")
      plainCheckpoints
      (fun fetch => fetch.rows = incomingRows .plain akshareYjygEmDataset
        ((forecastRun 10 "预增").frame fetch.period fetch.code (forecastOf "预增")))
      noDisclosures (inv_start hstart) (fun _ _ _ _ selected hanswer => by
        obtain rfl : forecastOf "预增" = selected := Except.ok.inj hanswer
        rfl) fetch hmem
    rcases hfirst with hnil | hrows
    · cases hnil
    · obtain rfl : forecastOf "预增" = selected := Except.ok.inj hanswer
      rw [hrows, hperiod]
      exact .refl _ _
  exact ⟨hstatuses, @window_holds_answers .plain .plain plainCheckpoints .empty hstart
    [forecastRun 10 "预增"] (forecastRun 11 "预增") _ _ (Prod.ext hstatuses rfl) (by decide) rfl
    hunchanged _ hwindow ⟨2024, .first⟩ List.mem_cons_self "2024一季" (by decide +kernel)
    (forecastOf "预增") rfl⟩

/-- The second run ends without a record, and the period still has the forecast of the first. -/
theorem changed_forecast_not_fetched :
    let second := (forecastRun 11 "预减").perform .plain .plain plainCheckpoints forecastsFetched
    second.1 = some [] ∧ (forecastRun 11 "预减").request.maxTasks = none ∧
      DisclosureTarget.yjygEm.resolvePeriods (forecastRun 11 "预减").request =
        .ok [⟨2024, .first⟩, ⟨2024, .half⟩, ⟨2024, .third⟩, ⟨2024, .annual⟩, ⟨2025, .first⟩] ∧
      ¬HoldsAnswer .replace (content second.2.store akshareYjygEmDataset "2024一季")
        ((forecastRun 11 "预减").answerRows .plain ⟨2024, .first⟩ "2024一季"
          (forecastOf "预减")) := by
  refine ⟨by decide +kernel, rfl, by decide +kernel, fun holds => ?_⟩
  have hstored : (content ((forecastRun 11 "预减").perform .plain .plain plainCheckpoints
      forecastsFetched).2.store akshareYjygEmDataset "2024一季").map
        (fun r => r "forecast_type") = [.text "预增"] := by decide +kernel
  have hanswer : ((forecastRun 11 "预减").answerRows .plain ⟨2024, .first⟩ "2024一季"
      (forecastOf "预减")).map (fun r => r "forecast_type") = [.text "预减"] := by decide +kernel
  have hmem : Cell.text "预减" ∈ ((forecastRun 11 "预减").answerRows .plain ⟨2024, .first⟩ "2024一季"
      (forecastOf "预减")).map (fun r => r "forecast_type") := by
    rw [hanswer]
    exact List.mem_singleton_self _
  obtain ⟨w, hw, hcell⟩ := List.mem_map.mp hmem
  obtain ⟨r, hr, hsame⟩ := holds.complete w hw
  have hold := List.mem_map_of_mem (f := fun r : Row => r "forecast_type") hr
  rw [hstored, hsame "forecast_type" (by decide), hcell, List.mem_singleton] at hold
  exact absurd hold (by decide)

end QuantDataCenter.Sources

import Mathlib.Data.List.Infix
import Mathlib.Logic.Relation

/-!
The download of the Qlib archive (`_download_file`), which goes on where an earlier one stopped: it
asks for the bytes behind those that the archive path already holds and appends them, whatever
release these came from.
-/

set_option autoImplicit false
set_option relaxedAutoImplicit false

namespace QuantDataCenter.Sources

abbrev Bytes := List UInt8

/-- What a request brings: a response whose body is read in parts, and the last read of which may
raise, an HTTP error, or nothing. -/
inductive Answer where
  | response (status : ℕ) (parts : List Bytes) (broken : Bool)
  | httpError (code : ℕ)
  | unreachable
  deriving DecidableEq, Repr

inductive DownloadError where
  | timeout
  | connection
  | http (code : ℕ)
  deriving DecidableEq, Repr

/-- The first byte that is asked for; without a leftover the request has no range. -/
def rangeHeader (target : Option Bytes) : Option ℕ :=
  let existingSize := (target.map List.length).getD 0
  if 0 < existingSize then some existingSize else none

/-- The content of the file when it is opened: it is kept in the mode `ab`. -/
def openedContent (target : Option Bytes) (status : ℕ) : Bytes :=
  if (rangeHeader target).isSome = true ∧ status = 206 then target.getD [] else []

section Download

variable (expired : ℕ → Bool)

/-- The loop that reads and writes; the k-th look at the deadline may raise. -/
def copyParts (broken : Bool) : ℕ → Bytes → List Bytes → Except DownloadError Unit × Bytes
  | k, content, [] =>
    if expired k then (.error .timeout, content)
    else if broken then (.error .connection, content) else (.ok (), content)
  | k, content, chunk :: parts =>
    if expired k then (.error .timeout, content)
    else if chunk = [] then (.ok (), content)
    else copyParts broken (k + 1) (content ++ chunk) parts

/-- `_download_file`: what it returns, and the file afterwards. -/
def downloadFile (server : Option ℕ → Answer) (target : Option Bytes) :
    Except DownloadError Unit × Option Bytes :=
  if expired 0 then (.error .timeout, target)
  else match server (rangeHeader target) with
    | .unreachable => (.error .connection, target)
    | .httpError code => if code = 416 then (.ok (), target) else (.error (.http code), target)
    | .response status parts broken =>
      let out := copyParts expired broken 1 (openedContent target status) parts
      (out.1, some out.2)

end Download

/-- The answers of a server that holds the asset, when the whole body is received. -/
inductive Serves (asset : Bytes) : Option ℕ → Answer → Prop where
  | full {range : Option ℕ} {parts : List Bytes} {broken : Bool} (hparts : ∀ chunk ∈ parts, chunk ≠ [])
      (hbody : parts.flatten = asset) : Serves asset range (.response 200 parts broken)
  | rest {first : ℕ} {parts : List Bytes} {broken : Bool} (hparts : ∀ chunk ∈ parts, chunk ≠ [])
      (hbody : parts.flatten = asset.drop first) :
      Serves asset (some first) (.response 206 parts broken)
  | unsatisfiable {range : Option ℕ} : Serves asset range (.httpError 416)

/-- The answer fits the leftover: bytes are appended to a part of the asset only, and a leftover
that is kept is the asset. -/
def Resumable (asset : Bytes) (target : Option Bytes) : Answer → Prop
  | .response status _ _ => status = 206 → target.getD [] <+: asset
  | .httpError _ => target = some asset
  | .unreachable => True

section Result

variable {expired : ℕ → Bool} {server : Option ℕ → Answer} {asset : Bytes}
  {target file : Option Bytes}

private theorem copyParts_ok {broken : Bool} {k : ℕ} {content out : Bytes} {parts : List Bytes}
    (hparts : ∀ chunk ∈ parts, chunk ≠ [])
    (hcopy : copyParts expired broken k content parts = (.ok (), out)) :
    out = content ++ parts.flatten := by
  induction parts generalizing k content with
  | nil =>
    unfold copyParts at hcopy
    split at hcopy
    · cases hcopy
    · split at hcopy
      · cases hcopy
      · rw [List.flatten_nil, List.append_nil]
        exact (Prod.mk.inj hcopy).2.symm
  | cons chunk parts ih =>
    unfold copyParts at hcopy
    rw [if_neg (hparts chunk List.mem_cons_self)] at hcopy
    split at hcopy
    · cases hcopy
    · have hrest := ih (fun other hother => hparts other (List.mem_cons_of_mem _ hother)) hcopy
      rw [hrest, List.flatten_cons, List.append_assoc]

private theorem rangeHeader_some {first : ℕ} (h : rangeHeader target = some first) :
    ∃ content, target = some content ∧ content.length = first ∧ 0 < first := by
  unfold rangeHeader at h
  simp only at h
  split at h
  case isTrue hpos =>
    cases target with
    | none => cases hpos
    | some content => exact ⟨content, rfl, Option.some.inj h, Option.some.inj h ▸ hpos⟩
  case isFalse => cases h

/-- What is behind a part of the asset completes it, and only that. -/
private theorem append_drop_eq_iff {content asset : Bytes} :
    content ++ asset.drop content.length = asset ↔ content <+: asset := by
  constructor
  · intro h
    exact ⟨_, h⟩
  · rintro ⟨rest, rfl⟩
    rw [List.drop_left]

/-- What a download leaves when it has received the whole body. -/
def completed (asset : Bytes) (target : Option Bytes) : Answer → Option Bytes
  | .response status _ _ =>
    if status = 206 then some (target.getD [] ++ asset.drop (target.getD []).length) else some asset
  | _ => target

private theorem downloadFile_file
    (hserves : Serves asset (rangeHeader target) (server (rangeHeader target)))
    (hreturns : downloadFile expired server target = (.ok (), file)) :
    file = completed asset target (server (rangeHeader target)) := by
  unfold downloadFile at hreturns
  split at hreturns
  case isTrue => cases hreturns
  case isFalse =>
    generalize hrange : rangeHeader target = range at hserves hreturns
    generalize server range = answer at hserves hreturns
    cases hserves with
    | @full _ parts broken hparts hbody =>
      rcases hcopy : copyParts expired broken 1 (openedContent target 200) parts with ⟨result, out⟩
      simp only [hcopy] at hreturns
      obtain ⟨rfl, rfl⟩ := Prod.mk.inj hreturns
      have hout := copyParts_ok hparts hcopy
      have hopened : openedContent target 200 = [] := if_neg fun h => absurd h.2 (by decide)
      rw [hout, hopened, List.nil_append, hbody]
      rfl
    | @rest first parts broken hparts hbody =>
      rcases hcopy : copyParts expired broken 1 (openedContent target 206) parts with ⟨result, out⟩
      simp only [hcopy] at hreturns
      obtain ⟨rfl, rfl⟩ := Prod.mk.inj hreturns
      have hout := copyParts_ok hparts hcopy
      obtain ⟨content, rfl, rfl, -⟩ := rangeHeader_some hrange
      have hopened : openedContent (some content) 206 = content := by
        unfold openedContent
        rw [hrange]
        rfl
      rw [hout, hopened, hbody]
      rfl
    | unsatisfiable =>
      obtain ⟨-, rfl⟩ := Prod.mk.inj hreturns
      rfl

private theorem completed_eq_iff {answer : Answer}
    (hserves : Serves asset (rangeHeader target) answer) :
    completed asset target answer = some asset ↔ Resumable asset target answer := by
  generalize rangeHeader target = range at hserves
  cases hserves with
  | full => exact iff_of_true rfl fun h => absurd h (by decide)
  | rest =>
    have hcompleted : some (target.getD [] ++ asset.drop (target.getD []).length) = some asset ↔
        target.getD [] <+: asset := by
      rw [Option.some_inj, append_drop_eq_iff]
    exact hcompleted.trans ⟨fun h _ => h, fun h => h rfl⟩
  | unsatisfiable => exact Iff.rfl

/-- A download that returns has left the asset exactly if the answer fits what was there. -/
theorem download_asset_iff (hserves : Serves asset (rangeHeader target) (server (rangeHeader target)))
    (hreturns : downloadFile expired server target = (.ok (), file)) :
    file = some asset ↔ Resumable asset target (server (rangeHeader target)) := by
  rw [downloadFile_file hserves hreturns]
  exact completed_eq_iff hserves

end Result

/-! A server that takes ranges -/

def resumingServer (asset : Bytes) : Option ℕ → Answer
  | none => .response 200 [asset] false
  | some first =>
    if first < asset.length then .response 206 [asset.drop first] false else .httpError 416

private theorem serves_resumingServer {asset : Bytes} (hasset : asset ≠ []) (range : Option ℕ) :
    Serves asset range (resumingServer asset range) := by
  cases range with
  | none => exact .full (by simpa using hasset) (by simp)
  | some first =>
    unfold resumingServer
    simp only
    split
    case isTrue hlt =>
      refine .rest (fun chunk hchunk => ?_) (by simp)
      rw [List.mem_singleton.mp hchunk]
      exact List.ne_nil_of_length_pos (by rw [List.length_drop]; omega)
    case isFalse => exact .unsatisfiable

theorem download_asset_iff_part : (some [1, 2, 3] : Option Bytes) = some [1, 2, 3] ↔
    Resumable [1, 2, 3] (some [1]) (resumingServer [1, 2, 3] (rangeHeader (some [1]))) :=
  @download_asset_iff (fun _ => false) (resumingServer [1, 2, 3]) [1, 2, 3] (some [1])
    (some [1, 2, 3]) (serves_resumingServer (by decide) _) (by decide)

/-- The leftover of an older release is completed with the bytes of the current one, or kept. -/
theorem older_release_survives :
    Serves [1, 2, 3] (rangeHeader (some [9])) (resumingServer [1, 2, 3] (rangeHeader (some [9]))) ∧
      downloadFile (fun _ => false) (resumingServer [1, 2, 3]) (some [9]) = (.ok (), some [9, 2, 3]) ∧
      Serves [1, 2, 3] (rangeHeader (some [9, 8, 7]))
        (resumingServer [1, 2, 3] (rangeHeader (some [9, 8, 7]))) ∧
      downloadFile (fun _ => false) (resumingServer [1, 2, 3]) (some [9, 8, 7]) =
        (.ok (), some [9, 8, 7]) :=
  ⟨serves_resumingServer (by decide) _, by decide, serves_resumingServer (by decide) _, by decide⟩

/-! Several processes, each of which may be killed -/

/-- What a process may leave of a leftover when it is killed: the archive is removed at its end, and
before that the file holds what it was opened with and the first bytes that were received. -/
inductive LeftBy (asset : Bytes) : Option Bytes → Option Bytes → Prop where
  | untouched (target : Option Bytes) : LeftBy asset target target
  | removed (target : Option Bytes) : LeftBy asset target none
  | received {target : Option Bytes} {status : ℕ} {parts : List Bytes} {broken : Bool}
      (hserves : Serves asset (rangeHeader target) (.response status parts broken)) (count : ℕ) :
      LeftBy asset target (some (openedContent target status ++ parts.flatten.take count))

section Runs

variable {asset : Bytes} {target file : Option Bytes}

theorem LeftBy.keeps (hleft : LeftBy asset target file) (htarget : target.getD [] <+: asset) :
    file.getD [] <+: asset := by
  cases hleft with
  | untouched => exact htarget
  | removed => exact List.nil_prefix
  | @received status parts broken hserves count =>
    generalize hrange : rangeHeader target = range at hserves
    cases hserves with
    | full hparts hbody =>
      have hopened : openedContent target 200 = [] := if_neg fun h => absurd h.2 (by decide)
      rw [hopened, List.nil_append, hbody]
      exact List.take_prefix count asset
    | @rest first _ _ hparts hbody =>
      obtain ⟨content, rfl, rfl, -⟩ := rangeHeader_some hrange
      have hopened : openedContent (some content) 206 = content := by
        unfold openedContent
        rw [hrange]
        rfl
      obtain ⟨rest, rfl⟩ : content <+: asset := htarget
      rw [hopened, hbody, List.drop_left]
      exact (List.prefix_append_right_inj content).mpr (List.take_prefix count rest)

theorem leftover_prefix (hruns : Relation.ReflTransGen (LeftBy asset) none file) :
    file.getD [] <+: asset := by
  induction hruns with
  | refl => exact List.nil_prefix
  | tail _ hleft ih => exact hleft.keeps ih

/-- However often it was killed, a download of one release ends with its asset, if the server
refuses a range only when there is nothing left. -/
theorem one_release_resumes {expired : ℕ → Bool} {server : Option ℕ → Answer} {out : Option Bytes}
    (hruns : Relation.ReflTransGen (LeftBy asset) none file)
    (hserves : Serves asset (rangeHeader file) (server (rangeHeader file)))
    (hrefuses : ∀ range code, server range = .httpError code → ∃ first ∈ range, asset.length ≤ first)
    (hreturns : downloadFile expired server file = (.ok (), out)) : out = some asset := by
  rw [downloadFile_file hserves hreturns, completed_eq_iff hserves]
  have hpart := leftover_prefix hruns
  cases hanswer : server (rangeHeader file) with
  | response => exact fun _ => hpart
  | unreachable => trivial
  | httpError code =>
    obtain ⟨first, hfirst, hle⟩ := hrefuses _ _ hanswer
    obtain ⟨content, rfl, rfl, -⟩ := rangeHeader_some hfirst
    exact congrArg some (hpart.eq_of_length_le hle)

end Runs

end QuantDataCenter.Sources

import Koval.Conc.Course
import Koval.Server.Routes.RouteFrames
import Koval.Server.Samples
import Koval.Text.PathLemmas

/-!
This module contains what the loop over the parts of an upload comes to, apart from its steps.
-/

namespace Koval

def Upload.fileNames (upload : Upload) : List String := upload.parts.filterMap Part.fileName

structure Upload.IsAcceptable (upload : Upload) : Prop where
  complete : upload.ending = .ok ()
  nonempty : 1 ≤ upload.fileNames.length
  limited : upload.fileNames.length ≤ 32
  names : ∀ fileName ∈ upload.fileNames, endsWith fileName ".profraw"

def afterFiles (n : Nat) (parts : List Part) : List Part :=
  match parts with
  | [] => []
  | part :: parts =>
    if n = 0 then part :: parts
    else if part.fileName.isSome then afterFiles (n - 1) parts
    else afterFiles n parts

/--
Of a complete upload: not 32 files and something else after them. Of one that breaks off: something
that the handler refuses.
-/
def Upload.IsTakenRight (upload : Upload) : Prop :=
  match upload.ending with
  | .ok () =>
    ¬(upload.fileNames.length = 32 ∧ (∀ fileName ∈ upload.fileNames, endsWith fileName ".profraw")
      ∧ afterFiles 32 upload.parts ≠ [])
  | .error _ =>
    upload.fileNames = [] ∨ (∃ fileName ∈ upload.fileNames, ¬endsWith fileName ".profraw")
      ∨ afterFiles 32 upload.parts ≠ []

namespace uploadProfilesHandler

variable (upload : Upload)

inductive Reading where
  | refused (response : Response)
  | unsaved (err : IoError)
  | read (filesSaved : Nat)

def Reading.result (reading : Reading) : Except Response Nat :=
  match reading with
  | refused response => .error response
  | unsaved err =>
    .error (.text .internalServerError ("Failed to save profile file: " ++ err.toString))
  | read filesSaved => .ok filesSaved

def scan (parts : List Part) (filesSaved : Nat) : List (Path × Bytes) × Reading :=
  match parts with
  | [] => ([], .read filesSaved)
  | part :: parts =>
    if filesSaved ≥ 32 then
      ([], .refused (.text .badRequest "Maximum of 32 profile files is allowed"))
    else
      match part.fileName with
      | none => scan parts filesSaved
      | some fileName =>
        if !endsWith fileName ".profraw" then
          ([], .refused (.text .badRequest "Only files with .profraw extension are accepted"))
        else
          match part.bytes, (Path.ofString fileName).fileName, upload.write filesSaved with
          | .error e, _, _ => ([], .refused e.intoResponse)
          | .ok _, none, _ => scan parts filesSaved
          | .ok _, some _, some err => ([], .unsaved err)
          | .ok data, some cleanName, none =>
            let (saved, reading) := scan parts (filesSaved + 1)
            ((cleanName, data) :: saved, reading)

-- The file with the given name after some have been saved.
def overwrite (dir name : Path) (saved : List (Path × Bytes)) (file : Option FileRow) :
    Option FileRow :=
  match saved with
  | [] => file
  | (cleanName, data) :: saved =>
    overwrite dir name saved
      (if cleanName = name then some ⟨dir.join name, data⟩ else file)

variable {upload} {dir : Path} {rely : State → State → Prop}

theorem Reading.result_eq_ok_iff {reading : Reading} {filesSaved : Nat}
    : reading.result = .ok filesSaved ↔ reading = .read filesSaved := by
  cases reading <;> simp [result]

theorem exists_cleanName {fileName : String} (h : endsWith fileName ".profraw")
    : ∃ name, (Path.ofString fileName).fileName = some name ∧ Path.IsName name
        ∧ Path.ofString ".profraw" <:+ name := by
  apply Path.exists_fileName_of_suffix
  . unfold endsWith at h
    rw [List.isSuffixOf_iff_suffix] at h
    rcases h with ⟨pre, h⟩
    have hname : fileName = String.ofList pre ++ ".profraw" := by
      rw [← String.toList_inj, String.toList_append, String.toList_ofList, h]
    unfold Path.ofString
    rw [hname, Utf8.encode_append]
    exact List.suffix_append _ _
  . decide
  . decide

def KeepsDir (dir : Path) (s s' : State) : Prop :=
  ∀ name, Path.IsName name →
    s'.files.find? (dir.join name) = s.files.find? (dir.join name)

theorem find?_write {name cleanName : Path} (h : Path.IsName name) (hclean : Path.IsName cleanName)
    (s : State) (data : Bytes)
    : (s.write (dir.join cleanName) data).files.find? (dir.join name)
        =
      if cleanName = name then
        some ⟨dir.join name, data⟩
      else
        s.files.find? (dir.join name) := by
  apply (Table.find?_replace _ _ _).trans
  simp only [Path.join_inj h hclean]
  by_cases heq : cleanName = name
  . rw [if_pos heq, if_pos heq.symm, heq]
  . rw [if_neg heq, if_neg (Ne.symm heq)]

def Saves (rely : State → State → Prop) (dir : Path) (saved : List (Path × Bytes))
    (s s' : State) : Prop :=
  (∀ s s', rely s s' → KeepsDir dir s s') → ∀ name, Path.IsName name →
    s'.files.find? (dir.join name)
      =
    overwrite dir name saved (s.files.find? (dir.join name))

theorem ends_ret {res res' : Except Response Nat} {s s' : State}
    (h : Prog.Ends rely (Prog.ret res') s res s')
    : res = res' ∧ Saves rely dir [] s s' := by
  have ⟨hres, hrely⟩ := Prog.ends_ret_iff.mp h
  exact ⟨hres, fun hkeeps => hkeeps s s' hrely⟩

theorem ends_saveParts (hrefl : ∀ s, rely s s) {parts : List Part} {filesSaved : Nat} {s s' : State}
    {res : Except Response Nat}
    (h : Prog.Ends rely (saveParts upload dir parts filesSaved).run s res s')
    : res = (scan upload parts filesSaved).snd.result
        ∧ Saves rely dir (scan upload parts filesSaved).fst s s' := by
  induction parts generalizing filesSaved s with
  | nil => exact ends_ret h
  | cons part parts ih =>
    unfold saveParts at h
    unfold scan
    split at h
    . next hmax =>
      rw [if_pos hmax]
      exact ends_ret h
    . next hmax =>
      rw [if_neg hmax]
      cases hname : part.fileName with
      | none =>
        rw [hname] at h
        exact ih h
      | some fileName =>
        rw [hname] at h
        dsimp only at h ⊢
        split at h
        . next hsuffix =>
          rw [if_pos hsuffix]
          exact ends_ret h
        . next hsuffix =>
          rw [if_neg hsuffix]
          cases hbytes : part.bytes with
          | error e =>
            rw [hbytes] at h
            exact ends_ret h
          | ok data =>
            rw [hbytes] at h
            rcases exists_cleanName (by simpa using hsuffix) with ⟨cleanName, hclean, hisName, _⟩
            rw [hclean] at h ⊢
            dsimp only at h ⊢
            rcases h.of_bindExcept hrefl with ⟨_, s₁, hwrite, hrest⟩ | ⟨e, s₁, hwrite, hres, hrely⟩
            . rcases hwrite.of_atomic with ⟨s₀, hrely₀, hok, hrely₁⟩
              cases hfault : upload.write filesSaved with
              | some err =>
                rw [hfault] at hok
                contradiction
              | none =>
                rw [hfault] at hrely₁
                rcases ih hrest with ⟨hres, hsaves⟩
                refine ⟨hres, fun hkeeps name hisName' => ?_⟩
                rw [hsaves hkeeps name hisName', hkeeps _ _ hrely₁ name hisName']
                dsimp only
                rw [find?_write hisName' hisName, hkeeps _ _ hrely₀ name hisName']
                rfl
            . rcases hwrite.of_atomic with ⟨s₀, hrely₀, herror, hrely₁⟩
              cases hfault : upload.write filesSaved with
              | none =>
                rw [hfault] at herror
                contradiction
              | some err =>
                rw [hfault] at herror hrely₁
                injection herror with he
                refine ⟨by rw [hres, he]; rfl, fun hkeeps name hisName' => ?_⟩
                rw [hkeeps _ _ hrely name hisName', hkeeps _ _ hrely₁ name hisName']
                exact hkeeps _ _ hrely₀ name hisName'

theorem scan_snd_eq_read_iff (hwrite : ∀ n, upload.write n = none) {parts : List Part}
    (hbytes : ∀ part ∈ parts, ∃ data, part.bytes = .ok data) {filesSaved n : Nat}
    (hle : filesSaved ≤ 32)
    : (scan upload parts filesSaved).snd = .read n
        ↔
      n = filesSaved + (parts.filterMap Part.fileName).length
        ∧ (∀ fileName ∈ parts.filterMap Part.fileName, endsWith fileName ".profraw")
        ∧ afterFiles (32 - filesSaved) parts = [] := by
  induction parts generalizing filesSaved with
  | nil =>
    constructor
    . intro h
      injection h with h
      exact ⟨h.symm, by simp, rfl⟩
    . rintro ⟨rfl, _⟩
      rfl
  | cons part parts ih =>
    have ih := @ih fun part hpart => hbytes part (List.mem_cons_of_mem _ hpart)
    have ⟨data, hdata⟩ := hbytes part List.mem_cons_self
    unfold scan afterFiles
    by_cases hmax : filesSaved ≥ 32
    . simp [hmax]
    . rw [if_neg hmax, if_neg (by omega)]
      cases hname : part.fileName with
      | none =>
        rw [List.filterMap_cons_none hname]
        exact ih hle
      | some fileName =>
        rw [List.filterMap_cons_some hname]
        by_cases hsuffix : endsWith fileName ".profraw"
        . rcases exists_cleanName hsuffix with ⟨cleanName, hclean, _⟩
          have hrest : (scan upload parts (filesSaved + 1)).snd = .read n ↔ _ := ih (by omega)
          simp only [hsuffix, hdata, hclean, hwrite, Bool.not_true, Bool.false_eq_true, ite_false,
            Option.isSome_some, ite_true, List.length_cons, List.forall_mem_cons, true_and, hrest]
          rw [Nat.sub_add_eq, Nat.add_right_comm, Nat.add_assoc]
        . simp [hsuffix]

theorem length_le_of_afterFiles {parts : List Part} {n : Nat} (h : afterFiles n parts = [])
    : (parts.filterMap Part.fileName).length ≤ n := by
  induction parts generalizing n with
  | nil => exact Nat.zero_le n
  | cons part parts ih =>
    unfold afterFiles at h
    split at h
    . contradiction
    . next hn =>
      cases hname : part.fileName with
      | none =>
        rw [hname] at h
        rw [List.filterMap_cons_none hname]
        exact ih h
      | some fileName =>
        rw [hname] at h
        rw [List.filterMap_cons_some hname, List.length_cons]
        have := ih h
        omega

theorem afterFiles_eq_nil {parts : List Part} {n : Nat}
    (h : (parts.filterMap Part.fileName).length < n)
    : afterFiles n parts = [] := by
  induction parts generalizing n with
  | nil => rfl
  | cons part parts ih =>
    unfold afterFiles
    rw [if_neg (by omega)]
    cases hname : part.fileName with
    | none =>
      rw [List.filterMap_cons_none hname] at h
      exact ih h
    | some fileName =>
      rw [List.filterMap_cons_some hname, List.length_cons] at h
      exact ih (by omega)

/--
An upload goes on to the merge if it is acceptable and only then, if and only if it is one that the
loop, which takes a broken stream for its end and counts before it looks for a name, takes right.
-/
theorem acceptance_exact_iff (hwrite : ∀ n, upload.write n = none)
    (hbytes : ∀ part ∈ upload.parts, ∃ data, part.bytes = .ok data) {s s' : State}
    {res : Except Response Nat}
    (hends : Prog.Ends (fun _ _ => True) (saveParts upload dir upload.parts 0).run s res s')
    : ((∃ n, n ≠ 0 ∧ res = .ok n) ↔ upload.IsAcceptable) ↔ upload.IsTakenRight := by
  have hgoesOn : (∃ n, n ≠ 0 ∧ res = .ok n)
      ↔
    upload.fileNames ≠ [] ∧ (∀ fileName ∈ upload.fileNames, endsWith fileName ".profraw")
      ∧ afterFiles 32 upload.parts = [] := by
    rw [(ends_saveParts (fun _ => trivial) hends).left]
    simp only [Reading.result_eq_ok_iff, scan_snd_eq_read_iff hwrite hbytes (Nat.zero_le 32), Nat.zero_add, Nat.sub_zero]
    constructor
    . rintro ⟨n, hne, rfl, hnames, hafter⟩
      exact ⟨List.ne_nil_of_length_pos (Nat.pos_of_ne_zero hne), hnames, hafter⟩
    . rintro ⟨hne, hnames, hafter⟩
      exact ⟨_, Nat.pos_iff_ne_zero.mp (List.length_pos_of_ne_nil hne), rfl, hnames, hafter⟩
  rw [hgoesOn]
  unfold Upload.IsTakenRight
  cases hending : upload.ending with
  | error e =>
    have hbroken : ¬upload.IsAcceptable := by
      intro h
      have := h.complete
      rw [hending] at this
      contradiction
    simp only [hbroken, iff_false, not_and_or, not_not, not_forall, exists_prop, ne_eq]
  | ok _ =>
    by_cases hafter : afterFiles 32 upload.parts = []
    . have hle := length_le_of_afterFiles hafter
      apply iff_of_true
      . constructor
        . rintro ⟨hne, hnames, _⟩
          exact ⟨hending, List.length_pos_of_ne_nil hne, hle, hnames⟩
        . intro h
          exact ⟨List.ne_nil_of_length_pos h.nonempty, h.names, hafter⟩
      . rintro ⟨_, _, hne⟩
        exact hne hafter
    . have hge := mt afterFiles_eq_nil hafter
      constructor
      . rintro hexact ⟨hlength, hnames, _⟩
        have hacceptable : upload.IsAcceptable := ⟨hending, by omega, by omega, hnames⟩
        exact hafter (hexact.mpr hacceptable).right.right
      . intro hright
        apply iff_of_false
        . rintro ⟨_, _, hnil⟩
          exact hafter hnil
        . intro h
          have := h.limited
          apply hright
          refine ⟨?_, h.names, hafter⟩
          unfold Upload.fileNames at this ⊢
          omega

def sample (parts : List Part) (ending : Except MultipartError Unit) : Upload := {
  parts
  ending
  createDirAll := none
  write _ := none
  readDir := none
  joinError := none
  profdata _ := .ok ⟨.code 0, [], []⟩
  merged := some [2]
}

def oneProfile : List Part := [⟨some "default.profraw", .ok [1]⟩]

theorem acceptance_exact_iff_sample
    : ((∃ n, n ≠ 0 ∧ ((saveParts (sample oneProfile (.ok ())) (.ofString "p") oneProfile 0).runAlone
            (.empty Samples.settings)).fst = .ok n)
          ↔ (sample oneProfile (.ok ())).IsAcceptable)
        ↔
      (sample oneProfile (.ok ())).IsTakenRight :=
  acceptance_exact_iff (fun _ => rfl) (by simp [sample, oneProfile])
    (Prog.ends_runAlone (fun _ => trivial) _ _)

/-- A body that breaks off after its first file is merged. -/
theorem acceptance_inexact_broken
    : ¬∀ (upload : Upload) (dir : Path) (s s' : State) (res : Except Response Nat),
        (∀ n, upload.write n = none) → (∀ part ∈ upload.parts, ∃ data, part.bytes = .ok data) →
          Prog.Ends (fun _ _ => True) (saveParts upload dir upload.parts 0).run s res s' →
            ((∃ n, n ≠ 0 ∧ res = .ok n) ↔ upload.IsAcceptable) := by
  intro hall
  let upload := sample oneProfile (.error (.malformed "Error parsing `multipart/form-data` request"))
  let run := (saveParts upload (.ofString "p") upload.parts 0).run.runAlone (.empty Samples.settings)
  have hmerges : ∃ n, n ≠ 0 ∧ run.fst = .ok n := ⟨1, by decide, rfl⟩
  have hacceptable := (hall upload (.ofString "p") (.empty Samples.settings) run.snd run.fst
    (fun _ => rfl) (by simp [upload, sample, oneProfile])
    (Prog.ends_runAlone (fun _ => trivial) _ _)).mp hmerges
  have := hacceptable.complete
  contradiction

-- Uploads of files only, as names and contents.

def filePart (file : String × Bytes) : Part := ⟨some file.1, .ok file.2⟩

def cleanName (fileName : String) : Path := (Path.ofString fileName).fileName.getD []

def mergedPath (dir : Path) : Path := dir.join (.ofString "merged.profdata")

def mergeArgs (dir : Path) (s : State) : List Path :=
  match mergeCommand dir (mergedPath dir) s.files.rows with
  | some cmd => cmd.args
  | none => []

/--
The command line of the merge names, for each of the files, one with its content that `allowed`
holds of; and different ones for different files.
-/
def NamesAll (allowed : Path → Prop) (dir : Path) (files : List (String × Bytes))
    (s : State) : Prop :=
  ∃ places : List Path, places.Nodup
    ∧ (∀ place ∈ places, allowed place ∧ place ∈ mergeArgs dir s)
    ∧ List.Forall₂ (fun place file => s.files.find? place = some ⟨place, file.2⟩) places files

theorem cleanName_spec {fileName : String} (h : endsWith fileName ".profraw")
    : (Path.ofString fileName).fileName = some (cleanName fileName)
        ∧ Path.IsName (cleanName fileName)
        ∧ Path.ofString ".profraw" <:+ cleanName fileName := by
  rcases exists_cleanName h with ⟨name, hname, hspec⟩
  unfold cleanName
  rw [hname]
  exact ⟨rfl, hspec⟩

theorem extension_join {name : Path} (h : Path.IsName name)
    (hsuf : Path.ofString ".profraw" <:+ name)
    : (dir.join name).extension
        =
      if name = .ofString ".profraw" then none else some (.ofString "profraw") := by
  have heq : Path.ofString ".profraw" = Path.dot :: Path.ofString "profraw" := by decide
  rw [heq] at hsuf ⊢
  exact Path.extension_eq (Path.fileName_join h _) hsuf (by decide)

theorem contains_files_iff {s : State} {path : Path}
    : s.files.contains path ↔ path ∈ s.files.rows.map (·.path) := by
  rw [Table.contains, Option.isSome_iff_exists, List.mem_map]
  simp only [Table.find?_eq_some_iff]

theorem mem_mergeArgs_iff {name : Path} (h : Path.IsName name)
    (hsuf : Path.ofString ".profraw" <:+ name) (s : State)
    : dir.join name ∈ mergeArgs dir s
        ↔
      s.files.contains (dir.join name) ∧ name ≠ .ofString ".profraw" := by
  have hmem : dir.join name ∈ mergeCommand.profraws dir s.files.rows
      ↔
    s.files.contains (dir.join name) ∧ name ≠ .ofString ".profraw" := by
    unfold mergeCommand.profraws
    rw [List.mem_filter, Path.childName?_join h, extension_join h hsuf, contains_files_iff]
    simp
  have hjoin : Path.ofString ".profraw" <:+ dir.join name := by
    rw [Path.join_eq_append h]
    exact hsuf.trans (List.suffix_append _ _)
  have hmerge : dir.join name ≠ .ofString "merge" := by
    intro heq
    rw [heq] at hjoin
    exact absurd hjoin (by decide)
  have houtput : dir.join name ≠ .ofString "--output" := by
    intro heq
    rw [heq] at hjoin
    exact absurd hjoin (by decide)
  have hmerged : dir.join name ≠ mergedPath dir := by
    intro heq
    have hisName : Path.IsName (.ofString "merged.profdata") := by
      constructor <;> decide
    rw [(Path.join_inj h hisName).mp heq] at hsuf
    exact absurd hsuf (by decide)
  rw [← hmem]
  unfold mergeArgs mergeCommand
  dsimp only
  split
  . next cmd hcmd =>
    split at hcmd
    . contradiction
    . injection hcmd with hcmd
      rw [← hcmd]
      simp [hmerge, houtput, hmerged]
  . next hcmd =>
    split at hcmd
    . next hnil => rw [hnil]
    . contradiction

theorem overwrite_of_not_mem {name : Path} {saved : List (Path × Bytes)}
    (h : name ∉ saved.map Prod.fst) (file : Option FileRow)
    : overwrite dir name saved file = file := by
  induction saved generalizing file with
  | nil => rfl
  | cons entry saved ih =>
    rw [List.map_cons, List.mem_cons, not_or] at h
    unfold overwrite
    rw [if_neg (Ne.symm h.left)]
    exact ih h.right file

theorem overwrite_of_mem {name : Path} {data : Bytes} {saved : List (Path × Bytes)}
    (hnodup : (saved.map Prod.fst).Nodup) (h : (name, data) ∈ saved) (file : Option FileRow)
    : overwrite dir name saved file = some ⟨dir.join name, data⟩ := by
  induction saved generalizing file with
  | nil => contradiction
  | cons entry saved ih =>
    rw [List.map_cons, List.nodup_cons] at hnodup
    unfold overwrite
    rw [List.mem_cons] at h
    rcases h with rfl | h
    . rw [if_pos rfl]
      exact overwrite_of_not_mem hnodup.left _
    . exact ih hnodup.right h _

theorem scan_fst_fileParts {files : List (String × Bytes)} {filesSaved n : Nat}
    (h : (scan upload (files.map filePart) filesSaved).snd = .read n)
    : (scan upload (files.map filePart) filesSaved).fst
        = files.map fun file => (cleanName file.1, file.2) := by
  induction files generalizing filesSaved with
  | nil => rfl
  | cons file files ih =>
    rw [List.map_cons, scan] at h ⊢
    by_cases hmax : filesSaved ≥ 32
    . rw [if_pos hmax] at h
      contradiction
    . rw [if_neg hmax] at h ⊢
      dsimp only [filePart] at h ⊢
      by_cases hsuffix : endsWith file.1 ".profraw"
      . have hclean := (cleanName_spec hsuffix).left
        simp only [hsuffix, hclean, Bool.not_true, Bool.false_eq_true, ite_false] at h ⊢
        cases hfault : upload.write filesSaved with
        | some err =>
          rw [hfault] at h
          contradiction
        | none =>
          rw [hfault] at h
          exact congrArg (List.cons _) (ih h)
      . simp only [hsuffix] at h
        contradiction

/--
The merge gets each of the files of an upload, if and only if the files are saved under different
names, none of which is only the extension.
-/
theorem profiles_named_iff {files : List (String × Bytes)}
    (hnames : ∀ file ∈ files, endsWith file.1 ".profraw") {s s' : State}
    (hends : Prog.Ends (KeepsDir dir)
      (saveParts upload dir (files.map filePart) 0).run s (.ok files.length) s')
    : NamesAll (fun place => ∃ file ∈ files, place = dir.join (cleanName file.1))
          dir files s'
        ↔
      (files.map fun file => cleanName file.1).Nodup
        ∧ ∀ file ∈ files, cleanName file.1 ≠ .ofString ".profraw" := by
  have ⟨hres, hsaves⟩ := ends_saveParts (fun s name _ => rfl) hends
  have hsaved := scan_fst_fileParts (Reading.result_eq_ok_iff.mp hres.symm)
  rw [hsaved] at hsaves
  have hsaves := hsaves fun s s' h => h
  let dests := files.map fun file => dir.join (cleanName file.1)
  have hdests : dests = (files.map fun file => cleanName file.1).map dir.join := by
    rw [List.map_map]
    rfl
  have hargs {file : String × Bytes} (hfile : file ∈ files) :=
    have hspec := cleanName_spec (hnames file hfile)
    @mem_mergeArgs_iff dir _ hspec.right.left hspec.right.right s'
  constructor
  . rintro ⟨places, hnodup, hplaces, hcontents⟩
    have hsub : places ⊆ dests := by
      intro place hplace
      rcases (hplaces place hplace).left with ⟨file, hfile, rfl⟩
      exact List.mem_map_of_mem hfile
    have hlength : dests.length ≤ places.length := by
      rw [List.length_map, hcontents.length_eq]
    have hperm := (List.subperm_of_subset hnodup hsub).perm_of_length_le hlength
    constructor
    . apply List.Nodup.of_map dir.join
      rw [← hdests]
      exact hperm.nodup hnodup
    . intro file hfile
      have hplace := hperm.mem_iff.mpr (List.mem_map_of_mem hfile)
      exact ((hargs hfile).mp (hplaces _ hplace).right).right
  . rintro ⟨hnodup, hne⟩
    have hfind : ∀ file ∈ files, s'.files.find? (dir.join (cleanName file.1))
        = some ⟨dir.join (cleanName file.1), file.2⟩ := by
      intro file hfile
      rw [hsaves _ (cleanName_spec (hnames file hfile)).right.left]
      apply overwrite_of_mem
      . rw [List.map_map]
        exact hnodup
      . exact List.mem_map_of_mem hfile
    refine ⟨dests, ?_, ?_, ?_⟩
    . rw [hdests]
      apply List.Nodup.map_on _ hnodup
      intro name hname name' hname' heq
      rw [List.mem_map] at hname hname'
      rcases hname with ⟨file, hfile, rfl⟩
      rcases hname' with ⟨file', hfile', rfl⟩
      exact (Path.join_inj (cleanName_spec (hnames file hfile)).right.left
        (cleanName_spec (hnames file' hfile')).right.left).mp heq
    . intro place hplace
      rw [List.mem_map] at hplace
      rcases hplace with ⟨file, hfile, rfl⟩
      refine ⟨⟨file, hfile, rfl⟩, (hargs hfile).mpr ⟨?_, hne file hfile⟩⟩
      rw [Table.contains, hfind file hfile]
      rfl
    . exact List.forall₂_map_left_iff.mpr (List.forall₂_same.mpr hfind)

theorem keepsDir_refl (dir : Path) (s : State) : KeepsDir dir s s := fun _ _ => rfl

def savedAlone (files : List (String × Bytes)) : Except Response Nat × State :=
  (saveParts (sample (files.map filePart) (.ok ())) (.ofString "p") (files.map filePart) 0).run.runAlone
    (.empty Samples.settings)

theorem ends_savedAlone (files : List (String × Bytes))
    : Prog.Ends (KeepsDir (.ofString "p"))
        (saveParts (sample (files.map filePart) (.ok ())) (.ofString "p") (files.map filePart) 0).run
        (.empty Samples.settings) (savedAlone files).fst (savedAlone files).snd :=
  Prog.ends_runAlone (keepsDir_refl _) _ _

def twoProfiles : List (String × Bytes) := [("a.profraw", [1]), ("b.profraw", [2])]

theorem profiles_named_iff_two
    : NamesAll (fun place => ∃ file ∈ twoProfiles, place = (Path.ofString "p").join (cleanName file.1))
        (.ofString "p") twoProfiles (savedAlone twoProfiles).snd :=
  (profiles_named_iff (by decide) (ends_savedAlone twoProfiles)).mpr (by decide)

def sameBaseName : List (String × Bytes) := [("a/x.profraw", [1]), ("b/x.profraw", [2])]

/-- Of two files with the same base name, one is lost. -/
theorem profiles_unnamed_directories
    : ¬∀ (upload : Upload) (dir : Path) (files : List (String × Bytes)) (s s' : State),
        files.length ≤ 32 → (∀ file ∈ files, endsWith file.1 ".profraw") →
          Prog.Ends (KeepsDir dir) (saveParts upload dir (files.map filePart) 0).run s
            (.ok files.length) s' →
          NamesAll (fun _ => True) dir files s' := by
  intro hall
  have hnames := hall _ _ sameBaseName _ _ (by decide) (by decide) (ends_savedAlone sameBaseName)
  rcases hnames with ⟨places, _, _, hcontents⟩
  unfold sameBaseName at hcontents
  cases hcontents with
  | cons hfirst _ =>
    have hmem := Table.mem_of_find? hfirst
    have hrows : (savedAlone sameBaseName).snd.files.rows = [⟨.ofString "p/x.profraw", [2]⟩] := by
      decide
    change _ ∈ (savedAlone sameBaseName).snd.files.rows at hmem
    rw [hrows, List.mem_singleton] at hmem
    injection hmem with _ hcontent
    contradiction

def dirOf (settings : Settings) (instrumentJobId : String) (s : State) : Path :=
  match s.db.pgoProfiles.find? instrumentJobId with
  | some p => .ofString p.profilesDir
  | none =>
    (settings.artifactsDir.join (.ofString "pgo_profiles")).join (.ofString instrumentJobId)

def IsRefused (upload : Upload) : Prop :=
  match (scan upload upload.parts 0).snd with
  | .refused _ => True
  | .unsaved _ => False
  | .read filesSaved => filesSaved = 0

structure KeepsProfiles (dir : Path) (s s' : State) : Prop where
  dir : KeepsDir dir s s'
  pgoProfiles : s'.db.pgoProfiles = s.db.pgoProfiles

variable {crates : Crates} {settings : Settings} {ambient : Ambient} {instrumentJobId : String}

theorem keepsProfiles_refl (dir : Path) (s : State) : KeepsProfiles dir s s :=
  ⟨fun _ _ => rfl, rfl⟩

theorem KeepsProfiles.trans {s s' s'' : State} (h : KeepsProfiles dir s s')
    (h' : KeepsProfiles dir s' s'')
    : KeepsProfiles dir s s'' where
  dir name hname := (h'.dir name hname).trans (h.dir name hname)
  pgoProfiles := h'.pgoProfiles.trans h.pgoProfiles

-- Step 4 finds the directory, or stores a row for it.
theorem ends_profilesDir {s s' : State}
    (h : Prog.Ends (KeepsProfiles (dirOf settings instrumentJobId s))
      (profilesDir settings ambient upload instrumentJobId).run s (.ok dir) s')
    : dir = dirOf settings instrumentJobId s
        ∧ KeepsDir dir s s'
        ∧ (s'.db.pgoProfiles = s.db.pgoProfiles ↔
            (s.db.pgoProfiles.find? instrumentJobId).isSome) := by
  rcases h.of_atomic with ⟨s₀, hrely₀, hok, hrely₁⟩
  cases hget : s₀.runDb (ambient.faults 2) (Db.getPgoProfile instrumentJobId) with
  | mk res s₁ =>
    rw [hget] at hok hrely₁
    cases res with
    | error err => contradiction
    | ok found =>
      have ⟨hrun, hs₁⟩ := run_of_runDb hget
      have ⟨hfound, hdb⟩ := Sql.run_query_eq_ok hrun
      have hs₁ : s₁ = s₀ := by rw [hs₁, hdb]
      rw [hs₁] at hrely₁ hok
      rw [hrely₀.pgoProfiles] at hfound
      unfold dirOf at hrely₀ hrely₁ ⊢
      rw [← hfound] at hrely₀ hrely₁ ⊢
      cases found with
      | some p =>
        have hdir : dir = .ofString p.profilesDir := by
          injection hok
        have hkeeps := hrely₀.trans hrely₁
        rw [hdir]
        exact ⟨rfl, hkeeps.dir, iff_of_true hkeeps.pgoProfiles rfl⟩
      | none =>
        dsimp only at hok hrely₁ ⊢
        cases hcreate : upload.createDirAll with
        | some err =>
          rw [hcreate] at hok
          contradiction
        | none =>
          rw [hcreate] at hok hrely₁
          dsimp only at hok hrely₁
          split at hrely₁
          . next s₂ hinsert =>
            rw [hinsert] at hok
            have ⟨hrun, hs₂⟩ := run_of_runDb hinsert
            rcases Sql.run_execute_cases hrun with ⟨_, hchange⟩ | ⟨err, herr, _⟩
            . rcases Db.inserted_eq_ok hchange with ⟨table, htable, hdb₂⟩
              injection hok with hdir
              rw [hdir]
              refine ⟨rfl, ?_, iff_of_false ?_ Bool.false_ne_true⟩
              . intro name hname
                rw [hrely₁.dir name hname, hs₂]
                exact hrely₀.dir name hname
              . intro heq
                have hfind := Table.find?_of_insert? htable instrumentJobId
                have hnone := hfound.symm
                rw [← heq, hrely₁.pgoProfiles, hdb₂, hfind, if_pos rfl] at hnone
                contradiction
            . contradiction
          . next err s₂ hinsert =>
            rw [hinsert] at hok
            contradiction

-- Step 5 with the check after it, and the rest.
def readFields (upload : Upload) (dir : Path) (next : Nat → Handler Response) :
    Handler Response := do
  let filesSaved ← saveParts upload dir upload.parts 0
  if filesSaved = 0 then
    throw (.text .badRequest "No files uploaded")
  else
    next filesSaved

/-- The handler reads the fields so, into the directory that it has got. -/
theorem exists_mergeAndSubmit_eq (crates : Crates) (settings : Settings) (ambient : Ambient)
    (upload : Upload) (instrumentJobId : String) (jobDetails : Db.JobDetails) (tokenId : Int)
    : ∃ next : Path → Nat → Handler Response,
        mergeAndSubmit crates settings ambient upload instrumentJobId jobDetails tokenId
          =
        (do let dir ← profilesDir settings ambient upload instrumentJobId
            readFields upload dir (next dir)) := ⟨_, rfl⟩

theorem ends_readFields {next : Nat → Handler Response} {s s' : State} {res : Except Response Response}
    (hrefused : IsRefused upload)
    (hends : Prog.Ends (KeepsProfiles dir) (readFields upload dir next).run s res s')
    : (∀ name, Path.IsName name → s'.files.find? (dir.join name)
          = overwrite dir name (scan upload upload.parts 0).fst (s.files.find? (dir.join name)))
        ∧ s'.db.pgoProfiles = s.db.pgoProfiles := by
  have hrefl := keepsProfiles_refl dir
  have hparts : ∃ res s₁, Prog.Ends (KeepsProfiles dir)
      (saveParts upload dir upload.parts 0).run s res s₁ ∧ KeepsProfiles dir s₁ s' := by
    rcases hends.of_bindExcept hrefl with ⟨n, s₁, hparts, hlast⟩ | ⟨e, s₁, hparts, _, hrely⟩
    . have hn : n = 0 := by
        have hres := Reading.result_eq_ok_iff.mp (ends_saveParts hrefl hparts).left.symm
        unfold IsRefused at hrefused
        rw [hres] at hrefused
        exact hrefused
      rw [hn] at hlast
      exact ⟨_, s₁, hparts, (Prog.ends_ret_iff.mp hlast).right⟩
    . exact ⟨_, s₁, hparts, hrely⟩
  rcases hparts with ⟨_, s₁, hparts, hrely⟩
  have hsaves := (ends_saveParts hrefl hparts).right fun _ _ h => h.dir
  have hdb : Prog.Always (fun s s' => s'.db.pgoProfiles = s.db.pgoProfiles)
      (saveParts upload dir upload.parts 0).run := by
    apply (still_saveParts upload dir upload.parts 0).mono
    intro _ _ h
    exact h.db.pgoProfiles
  have hpgo := hdb.ends (fun _ _ _ h h' => h'.trans h) (fun _ _ h => h.pgoProfiles) hparts
  refine ⟨fun name hname => ?_, hrely.pgoProfiles.trans hpgo⟩
  rw [hrely.dir name hname, hsaves name hname]

/--
An upload that is refused while its fields are read leaves no trace, if and only if the job had a
row for its profiles, and the files that were saved before had been there with the same content.
-/
theorem refused_leaves_no_trace_iff {next : Nat → Handler Response} {s mid s' : State}
    {res : Except Response Response} (hrefused : IsRefused upload)
    (hdir : Prog.Ends (KeepsProfiles (dirOf settings instrumentJobId s))
      (profilesDir settings ambient upload instrumentJobId).run s (.ok dir) mid)
    (hends : Prog.Ends (KeepsProfiles dir) (readFields upload dir next).run mid res s')
    : KeepsProfiles dir s s'
        ↔
      (s.db.pgoProfiles.find? instrumentJobId).isSome
        ∧ ∀ name, Path.IsName name →
            overwrite dir name (scan upload upload.parts 0).fst (s.files.find? (dir.join name))
              =
            s.files.find? (dir.join name) := by
  have ⟨_, hkeeps, hrow⟩ := ends_profilesDir hdir
  have ⟨hfiles, hpgo⟩ := ends_readFields hrefused hends
  rw [← hpgo] at hrow
  constructor
  . intro h
    refine ⟨hrow.mp h.pgoProfiles, fun name hname => ?_⟩
    rw [← hkeeps name hname, ← hfiles name hname, hkeeps name hname]
    exact h.dir name hname
  . rintro ⟨hsome, hsame⟩
    refine ⟨fun name hname => ?_, hrow.mpr hsome⟩
    rw [hfiles name hname, hkeeps name hname]
    exact hsame name hname

def unreached (_ : Nat) : Handler Response := throw (.text .internalServerError "")

def notes : Part := ⟨some "notes.txt", .ok [1]⟩

def profiled : State := {
  db := { pgoProfiles := ⟨[⟨"4c1e", "p", none, "2026-05-17T16:53:04+00:00"⟩], by decide⟩ }
  queue := .new 10
}

theorem refused_leaves_no_trace_iff_notes
    : KeepsProfiles (.ofString "p") profiled
        ((readFields (sample [notes] (.ok ())) (.ofString "p") unreached).run.runAlone profiled).snd := by
  have hrefl := keepsProfiles_refl (.ofString "p")
  have hdir : Prog.Ends (KeepsProfiles (dirOf Samples.settings "4c1e" profiled))
      (profilesDir Samples.settings (Samples.ambient "9b7d") (sample [notes] (.ok ())) "4c1e").run
      profiled (.ok (.ofString "p")) profiled := Prog.ends_runAlone hrefl _ _
  have hends := Prog.ends_runAlone hrefl
    (readFields (sample [notes] (.ok ())) (.ofString "p") unreached).run profiled
  have hrefused : IsRefused (sample [notes] (.ok ())) := trivial
  apply (refused_leaves_no_trace_iff hrefused hdir hends).mpr
  exact ⟨by decide, fun _ _ => rfl⟩

def instrumented : List Action :=
  Samples.submitted 0 (.build { Samples.request with pgoPhase := some "instrument" }) "4c1e" 3
    ++ Samples.processed 1 Samples.externals 10

def leftBehind : Upload := sample (oneProfile ++ [notes]) (.ok ())

-- The first file is new in the directory, and stays there.
def leavesFile (s : State) : Bool :=
  match (profilesDir Samples.settings (Samples.ambient "9b7d") leftBehind "4c1e").run.runAlone s with
  | (.ok dir, mid) =>
    let file := dir.join (.ofString "default.profraw")
    !s.files.contains file
      && ((readFields leftBehind dir unreached).run.runAlone mid).snd.files.contains file
  | _ => false

theorem refused_leaves_first_file
    : ¬∀ (crates : Crates) (settings : Settings) (system : System) (ambient : Ambient)
        (upload : Upload) (instrumentJobId : String) (dir : Path) (next : Nat → Handler Response)
        (mid s' : State) (res : Except Response Response),
        system.Reachable crates settings → IsRefused upload →
          Prog.Ends (KeepsProfiles (dirOf settings instrumentJobId system.state))
            (profilesDir settings ambient upload instrumentJobId).run system.state (.ok dir) mid →
          Prog.Ends (KeepsProfiles dir) (readFields upload dir next).run mid res s' →
            KeepsProfiles dir system.state s' := by
  intro hall
  rcases Samples.exists_of_runs instrumented (fun system => leavesFile system.state)
      (by decide +kernel) with
    ⟨system₀, system, hmain, hrun, hleaves⟩
  unfold leavesFile at hleaves
  split at hleaves
  . next dir mid hstep =>
    have hdir := Prog.ends_runAlone
      (keepsProfiles_refl (dirOf Samples.settings "4c1e" system.state))
      (profilesDir Samples.settings (Samples.ambient "9b7d") leftBehind "4c1e").run system.state
    rw [hstep] at hdir
    have hrefused : IsRefused leftBehind := trivial
    have hkeeps := hall _ _ system _ _ _ _ _ _ _ _ ⟨Samples.boot, system₀, _, hmain, hrun⟩ hrefused
      hdir (Prog.ends_runAlone (keepsProfiles_refl dir) (readFields leftBehind dir unreached).run mid)
    have hname : Path.IsName (.ofString "default.profraw") := by
      constructor <;> decide
    rw [Bool.and_eq_true, Bool.not_eq_true', Table.contains, Table.contains,
      hkeeps.dir _ hname] at hleaves
    rw [hleaves.left] at hleaves
    exact absurd hleaves.right Bool.false_ne_true
  . contradiction

end uploadProfilesHandler

end Koval

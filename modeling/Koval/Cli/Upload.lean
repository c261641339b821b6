import Koval.Server.Routes.SaveParts
import Koval.Text.Utf8Lemmas

/-!
This module contains the command that uploads the raw profiles of a directory, and what they come to
on the server.
-/

namespace Koval

-- An entry of a directory; a link to a file is one, too.
structure ProfileEntry where
  name : Path
  isFile : Bool
  content : Except IoError Bytes

structure ProfilesDir where
  exists? : Bool
  isDir : Bool
  -- single entries may fail as well
  readDir : Except IoError (List (Except IoError ProfileEntry))

namespace Cli

def isProfile (path : Path) : Bool := path.extension.bind Utf8.toStr = some "profraw"

-- A name that is not UTF-8 becomes the empty text.
def filename (path : Path) : String := (path.fileName.bind Utf8.toStr).getD ""

def collect (dirPath : Path) (entries : List (Except IoError ProfileEntry))
    (files : List (String × Bytes)) : Except String (List (String × Bytes)) :=
  match entries with
  | [] => .ok files
  | .error _ :: entries => collect dirPath entries files
  | .ok entry :: entries =>
    let path := dirPath.join entry.name
    if entry.isFile && isProfile path then
      match entry.content with
      | .error err =>
        .error ("Failed to read file '" ++ path.display ++ "': " ++ err.toString)
      | .ok content => collect dirPath entries (files ++ [(filename path, content)])
    else
      collect dirPath entries files

def upload (profilesDir : String) (dir : ProfilesDir) : Except String (List (String × Bytes)) :=
  if !dir.exists? || !dir.isDir then
    .error ("Error: Directory '" ++ profilesDir ++ "' does not exist or is not a directory")
  else
    match dir.readDir with
    | .error err => .error ("Failed to read directory '" ++ profilesDir ++ "': " ++ err.toString)
    | .ok entries =>
      match collect (.ofString profilesDir) entries [] with
      | .error msg => .error msg
      | .ok [] => .error ("Error: No .profraw files found in directory '" ++ profilesDir ++ "'")
      | .ok files => .ok files

def profiles (entries : List (Except IoError ProfileEntry)) : List (Path × Bytes) :=
  entries.filterMap fun entry =>
    match entry with
    | .ok ⟨name, true, .ok content⟩ => if isProfile name then some (name, content) else none
    | _ => none

theorem isProfile_join {name : Path} (h : Path.IsName name) (dir : Path)
    : isProfile (dir.join name) = isProfile name := by
  unfold isProfile Path.extension
  rw [Path.fileName_join h, Path.fileName_of_isName h]

theorem filename_join {name : Path} (h : Path.IsName name) (dir : Path)
    : filename (dir.join name) = (Utf8.toStr name).getD "" := by
  unfold filename
  rw [Path.fileName_join h]
  rfl

theorem collect_eq_ok {dirPath : Path} {entries : List (Except IoError ProfileEntry)}
    (hnames : ∀ entry, .ok entry ∈ entries → Path.IsName entry.name)
    {files files' : List (String × Bytes)} (h : collect dirPath entries files = .ok files')
    : files' = files ++ (profiles entries).map fun (name, content) =>
        ((Utf8.toStr name).getD "", content) := by
  induction entries generalizing files with
  | nil =>
    injection h with h
    rw [← h]
    exact (List.append_nil _).symm
  | cons entry entries ih =>
    have ih := @ih fun entry hentry => hnames entry (List.mem_cons_of_mem _ hentry)
    unfold profiles
    rw [List.filterMap_cons]
    cases entry with
    | error err => exact ih h
    | ok entry =>
      have hname := hnames entry List.mem_cons_self
      unfold collect at h
      rcases entry with ⟨name, isFile, content⟩
      dsimp only at h hname
      rw [isProfile_join hname, filename_join hname] at h
      split at h
      . next hprofile =>
        rw [Bool.and_eq_true] at hprofile
        split at h
        . contradiction
        . next bytes hcontent =>
          rw [hprofile.left]
          dsimp only
          rw [if_pos hprofile.right, List.map_cons]
          rw [ih h, List.append_assoc]
          rfl
      . next hprofile =>
        rw [ih h]
        cases isFile with
        | false => rfl
        | true =>
          rw [Bool.true_and] at hprofile
          cases content with
          | error err => rfl
          | ok bytes =>
            dsimp only
            rw [if_neg hprofile]
            rfl

theorem toStr_eq_some {bytes : Path} {s : String} (h : Utf8.toStr bytes = some s)
    : Path.ofString s = bytes := by
  unfold Utf8.toStr at h
  dsimp only at h
  split at h
  . next heq =>
    injection h with h
    rw [← h]
    exact heq
  . contradiction

theorem isProfile_spec {name : Path} (hname : Path.IsName name) (h : isProfile name)
    : Path.ofString ".profraw" <:+ name ∧ name ≠ .ofString ".profraw" := by
  have h := of_decide_eq_true h
  rcases Option.bind_eq_some_iff.mp h with ⟨ext, hext, hstr⟩
  have heq : Path.dot :: ext = Path.ofString ".profraw" := by
    rw [← toStr_eq_some hstr]
    decide
  rw [← heq]
  exact Path.of_extension_eq_some (Path.fileName_of_isName hname) hext

theorem endsWith_iff {name : Path} (hname : Path.IsName name) (h : isProfile name)
    : endsWith ((Utf8.toStr name).getD "") ".profraw" ↔ (Utf8.toStr name).isSome := by
  cases hstr : Utf8.toStr name with
  | none => decide
  | some s =>
    have hsuffix := (isProfile_spec hname h).left
    rw [← toStr_eq_some hstr] at hsuffix
    unfold Path.ofString at hsuffix
    rw [Utf8.encode_eq_flatMap, Utf8.encode_eq_flatMap] at hsuffix
    have hs : endsWith s ".profraw" := by
      unfold endsWith
      rw [List.isSuffixOf_iff_suffix]
      exact Utf8.suffix_of_flatMap (by simp) hsuffix
    exact ⟨fun _ => rfl, fun _ => hs⟩

theorem cleanName_of_toStr {name : Path} {s : String} (hname : Path.IsName name)
    (h : Utf8.toStr name = some s)
    : uploadProfilesHandler.cleanName s = name := by
  unfold uploadProfilesHandler.cleanName
  rw [toStr_eq_some h, Path.fileName_of_isName hname]
  rfl

theorem mem_profiles {entries : List (Except IoError ProfileEntry)}
    (hnames : ∀ entry, .ok entry ∈ entries → Path.IsName entry.name) {profile : Path × Bytes}
    (h : profile ∈ profiles entries)
    : Path.IsName profile.1 ∧ isProfile profile.1 := by
  rcases List.mem_filterMap.mp h with ⟨entry, hentry, hprofile⟩
  split at hprofile
  . next name content =>
    split at hprofile
    . next hisProfile =>
      injection hprofile with hprofile
      rw [← hprofile]
      exact ⟨hnames _ hentry, hisProfile⟩
    . contradiction
  . contradiction

def Distinct (entries : List (Except IoError ProfileEntry)) : Prop :=
  entries.Pairwise fun entry entry' =>
    ∀ e e', entry = .ok e → entry' = .ok e' → e.name ≠ e'.name

theorem nodup_profiles {entries : List (Except IoError ProfileEntry)} (h : Distinct entries)
    : ((profiles entries).map Prod.fst).Nodup := by
  have hname : ∀ {entry : Except IoError ProfileEntry} {profile : Path × Bytes},
      (match entry with
        | .ok ⟨name, true, .ok content⟩ => if isProfile name then some (name, content) else none
        | _ => none) = some profile → ∃ e, entry = .ok e ∧ e.name = profile.1 := by
    intro entry profile hprofile
    split at hprofile
    . next name content =>
      split at hprofile
      . injection hprofile with hprofile
        rw [← hprofile]
        exact ⟨_, rfl, rfl⟩
      . contradiction
    . contradiction
  unfold List.Nodup profiles
  rw [List.pairwise_map, List.pairwise_filterMap]
  apply List.Pairwise.imp _ h
  intro entry entry' hdistinct profile hprofile profile' hprofile'
  rcases hname hprofile with ⟨e, he, hprofile⟩
  rcases hname hprofile' with ⟨e', he', hprofile'⟩
  rw [← hprofile, ← hprofile']
  exact hdistinct e e' he he'

end Cli

open uploadProfilesHandler in
theorem afterFiles_fileParts {files : List (String × Bytes)} {n : Nat}
    : afterFiles n (files.map filePart) = [] ↔ files.length ≤ n := by
  induction files generalizing n with
  | nil => simp [afterFiles]
  | cons file files ih =>
    rw [List.map_cons, afterFiles, List.length_cons]
    split
    . next hn =>
      constructor
      . intro h
        contradiction
      . intro h
        omega
    . next hn =>
      have hsome : (filePart file).fileName.isSome := rfl
      rw [if_pos hsome, ih]
      omega

open uploadProfilesHandler in
theorem fileNames_fileParts (files : List (String × Bytes))
    : (files.map filePart).filterMap Part.fileName = files.map Prod.fst := by
  have hsome : Part.fileName ∘ filePart = some ∘ Prod.fst := rfl
  rw [List.filterMap_map, hsome, List.filterMap_eq_map]

def IsPlainName (name : String) : Prop := ∀ c ∈ name.toList, c ∉ ['\\', '"', '\r', '\n']

/-- What the libraries for the two ends of a request make of the files in a form. -/
structure Form where
  -- the length of the body
  size : List (String × Bytes) → Nat
  parts : List (String × Bytes) → List Part

-- The server reads no more of a body.
def bodyLimit : Nat := 50 * 1024 * 1024

def Form.CarriesPlain (form : Form) : Prop :=
  ∀ files, (∀ file ∈ files, IsPlainName file.1) → form.size files ≤ bodyLimit →
    form.parts files = files.map uploadProfilesHandler.filePart

namespace Cli

variable {entries : List (Except IoError ProfileEntry)}

def sent (profile : Path × Bytes) : String × Bytes :=
  ((Utf8.toStr profile.1).getD "", profile.2)

theorem upload_eq_ok {profilesDir : String} {localDir : ProfilesDir}
    (hentries : localDir.readDir = .ok entries)
    (hnames : ∀ entry, .ok entry ∈ entries → Path.IsName entry.name) {files : List (String × Bytes)}
    (h : upload profilesDir localDir = .ok files)
    : files = (profiles entries).map sent ∧ files ≠ [] := by
  unfold upload at h
  split at h
  . contradiction
  rw [hentries] at h
  dsimp only at h
  split at h
  . contradiction
  . contradiction
  . next files' hne hcollect =>
    injection h with h
    rw [← h]
    exact ⟨collect_eq_ok hnames hcollect, hne⟩

theorem plain_sent
    (hplain : ∀ entry, .ok entry ∈ entries → ∀ name, Utf8.toStr entry.name = some name →
      IsPlainName name)
    : ∀ file ∈ (profiles entries).map sent, IsPlainName file.1 := by
  intro file hfile
  rcases List.mem_map.mp hfile with ⟨profile, hprofile, rfl⟩
  rcases List.mem_filterMap.mp hprofile with ⟨entry, hentry, heq⟩
  unfold sent
  cases hstr : Utf8.toStr profile.1 with
  | none =>
    intro c hc
    contradiction
  | some name =>
    split at heq
    . split at heq
      . injection heq with heq
        rw [← heq] at hstr
        exact hplain _ hentry name hstr
      . contradiction
    . contradiction

section Received

open uploadProfilesHandler

variable (hnames : ∀ entry, .ok entry ∈ entries → Path.IsName entry.name) {received : Upload}
  (hparts : received.parts = ((profiles entries).map sent).map filePart)
include hnames hparts

theorem scan_sent_iff (hwrite : ∀ n, received.write n = none) {n : Nat}
    : (scan received received.parts 0).snd = .read n
        ↔
      n = (profiles entries).length
        ∧ (∀ profile ∈ profiles entries, (Utf8.toStr profile.1).isSome)
        ∧ (profiles entries).length ≤ 32 := by
  have hbytes : ∀ part ∈ received.parts, ∃ data, part.bytes = .ok data := by
    intro part hpart
    rw [hparts] at hpart
    rcases List.mem_map.mp hpart with ⟨file, _, rfl⟩
    exact ⟨file.2, rfl⟩
  have hsuffixes : (∀ fileName ∈ ((profiles entries).map sent).map Prod.fst,
      endsWith fileName ".profraw")
        ↔ ∀ profile ∈ profiles entries, (Utf8.toStr profile.1).isSome := by
    rw [List.map_map, List.forall_mem_map]
    refine forall₂_congr fun profile hprofile => ?_
    have ⟨hname, hisProfile⟩ := mem_profiles hnames hprofile
    exact endsWith_iff hname hisProfile
  rw [scan_snd_eq_read_iff hwrite hbytes (Nat.zero_le 32), hparts, fileNames_fileParts, hsuffixes,
    afterFiles_fileParts]
  simp only [List.length_map, Nat.zero_add, Nat.sub_zero]

theorem saved_sent (hwrite : ∀ n, received.write n = none) {n : Nat}
    (hread : (scan received received.parts 0).snd = .read n)
    : (scan received received.parts 0).fst = profiles entries := by
  have ⟨_, hutf8, _⟩ := (scan_sent_iff hnames hparts hwrite).mp hread
  rw [hparts] at hread ⊢
  rw [scan_fst_fileParts hread, List.map_map]
  apply (List.map_congr_left _).trans (List.map_id _)
  intro profile hprofile
  have ⟨hname, _⟩ := mem_profiles hnames hprofile
  rcases Option.isSome_iff_exists.mp (hutf8 profile hprofile) with ⟨name, hstr⟩
  have hclean : cleanName (sent profile).1 = profile.1 := by
    unfold sent
    rw [hstr]
    exact cleanName_of_toStr hname hstr
  exact Prod.ext hclean rfl

end Received

-- Two profiles among other entries.
def sampleEntries : List (Except IoError ProfileEntry) := [
  .ok ⟨.ofString "b.profraw", true, .ok [2]⟩,
  .ok ⟨.ofString "notes.txt", true, .ok [3]⟩,
  .error (.other "Input/output error"),
  .ok ⟨.ofString "a.profraw", true, .ok [1]⟩,
  .ok ⟨.ofString "old.profraw", false, .error (.other "Is a directory")⟩
]

def sampleDir : ProfilesDir := ⟨true, true, .ok sampleEntries⟩

-- Around each file there are a boundary and its headers.
def sampleForm : Form where
  size files := (files.map fun file => file.1.utf8ByteSize + file.2.length + 136).sum + 73
  parts files := files.map uploadProfilesHandler.filePart

def sampleUpload : Upload := uploadProfilesHandler.sample
  ([("b.profraw", [2]), ("a.profraw", [1])].map uploadProfilesHandler.filePart) (.ok ())

theorem name_of_mem_sampleEntries {entry : ProfileEntry} (h : .ok entry ∈ sampleEntries)
    : ∃ name ∈ ["b.profraw", "notes.txt", "a.profraw", "old.profraw"],
        entry.name = .ofString name := by
  simp only [sampleEntries, List.mem_cons, Except.ok.injEq, reduceCtorEq, List.not_mem_nil, or_false,
    false_or] at h
  rcases h with rfl | rfl | rfl | rfl <;> exact ⟨_, by decide, rfl⟩

end Cli

end Koval

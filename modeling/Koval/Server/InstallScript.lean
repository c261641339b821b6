import Koval.Server.InstallSh
import Koval.Server.Routes.Handler
import Koval.Text.Replace
import Koval.Text.Separator
import Koval.Text.Shell

/-!
This module contains the script that is served to install a project, and how a shell reads the values
that the server has put in it.
-/

namespace Koval

open Replace

structure InstallValues where
  serverUrl : String
  project : String
  ref : String
  token : String
  deriving DecidableEq, Repr

def withNewline (line : String) : List Char := line.toList ++ ['\n']

def installSh : List Char := installShLines.flatMap withNewline

def placeholder (name : String) : List Char := ("\x7b\x7b" ++ name ++ "\x7d\x7d").toList

namespace InstallValues

def render (values : InstallValues) : List Char :=
  let rendered := replace (placeholder "SERVER_URL") values.serverUrl.toList installSh
  let rendered := replace (placeholder "PROJECT") values.project.toList rendered
  let rendered := replace (placeholder "REF") values.ref.toList rendered
  replace (placeholder "TOKEN") values.token.toList rendered

def pairs (values : InstallValues) : List (List Char × List Char) := [
  (placeholder "SERVER_URL", values.serverUrl.toList),
  (placeholder "PROJECT", values.project.toList),
  (placeholder "REF", values.ref.toList),
  (placeholder "TOKEN", values.token.toList)
]

def assignments (values : InstallValues) : List (List Char × List Char) := [
  ("SERVER_URL".toList, values.serverUrl.toList),
  ("PROJECT".toList, values.project.toList),
  ("REF".toList, values.ref.toList),
  ("TOKEN".toList, values.token.toList)
]

end InstallValues

namespace installScriptHandler

def serverUrl (hostHeader : Option Bytes) : String :=
  let host := (hostHeader.bind headerToStr).getD "localhost:8090"
  let startsWith (pre : String) := pre.toList.isPrefixOf host.toList
  let scheme :=
    if startsWith "localhost" || startsWith "127.0.0.1" || startsWith "0.0.0.0" then "http"
    else "https"
  scheme ++ "://" ++ host

def values (hostHeader : Option Bytes) (project : String) (gitRef token : Option String) :
    InstallValues where
  serverUrl := serverUrl hostHeader
  project
  ref := gitRef.getD "main"
  token := token.getD ""

end installScriptHandler

def installScriptHandler (hostHeader : Option Bytes) (project : String)
    (gitRef token : Option String) : Response where
  status := .ok
  body :=
    .text (String.ofList (installScriptHandler.values hostHeader project gitRef token).render)
  headers := [
    ("content-type", "text/x-shellscript"),
    ("content-disposition", "attachment; filename=\"install.sh\"")
  ]

def dropLines (n : Nat) (cs : List Char) : List Char :=
  match n with
  | 0 => cs
  | n + 1 => dropLines n ((cs.dropWhile (· ≠ '\n')).drop 1)

namespace InstallValues

/--
All four placeholders are replaced at once, and what the shell reads in their place, between the four
lines before them and the rest of the script, are the four assignments.
-/
def CarriedBy (values : InstallValues) (script : List Char) : Prop :=
  script = replaceEach values.pairs installSh
    ∧
  Shell.readAssignments 4 (dropLines 4 script) = some (values.assignments, dropLines 8 installSh)

/-- No value has a meaning in double quotes, and the calls after its own leave each as it is. -/
structure AreInert (values : InstallValues) : Prop where
  verbatim : ∀ assignment ∈ values.assignments, Shell.isVerbatim assignment.snd
  serverUrl : replace (placeholder "TOKEN") values.token.toList
    (replace (placeholder "REF") values.ref.toList
      (replace (placeholder "PROJECT") values.project.toList values.serverUrl.toList))
      = values.serverUrl.toList
  project : replace (placeholder "TOKEN") values.token.toList
    (replace (placeholder "REF") values.ref.toList values.project.toList) = values.project.toList
  ref : replace (placeholder "TOKEN") values.token.toList values.ref.toList = values.ref.toList

end InstallValues

-- The script around the four values

def slot (name : String) (value rest : List Char) : List Char :=
  name.toList ++ '=' :: '"' :: (value ++ '"' :: '\n' :: rest)

def scriptWith (serverUrl project ref token : List Char) : List Char :=
  (installShLines.take 4).flatMap withNewline ++
    slot "SERVER_URL" serverUrl (slot "PROJECT" project (slot "REF" ref (slot "TOKEN" token
      ((installShLines.drop 8).flatMap withNewline))))

theorem installSh_eq
    : installSh = scriptWith (placeholder "SERVER_URL") (placeholder "PROJECT") (placeholder "REF")
        (placeholder "TOKEN") := by
  have hlines : installShLines = installShLines.take 4 ++ (installShLines.drop 4).take 4
      ++ installShLines.drop 8 := by rfl
  unfold installSh scriptWith
  conv => lhs; rw [hlines]
  rw [List.flatMap_append, List.flatMap_append, List.append_assoc]
  congr 1

def hasBraces (cs : List Char) : Bool :=
  match cs with
  | c :: c' :: rest => c = '\x7b' && c' = '\x7b' || hasBraces (c' :: rest)
  | _ => false

-- The characters of a literal are found faster than its `toList` is evaluated.
theorem hasBraces_ofList {cs : List Char} (h : hasBraces cs = false)
    : hasBraces (String.ofList cs).toList = false := by
  rw [String.toList_ofList]
  exact h

theorem hasBraces_before : ∀ line ∈ installShLines.take 4, hasBraces line.toList = false := by
  change ∀ line ∈ _ :: _, _
  repeat refine List.forall_mem_cons.mpr ⟨hasBraces_ofList (by decide), ?_⟩
  intro line hline
  contradiction

theorem hasBraces_after : ∀ line ∈ installShLines.drop 8, hasBraces line.toList = false := by
  change ∀ line ∈ _ :: _, _
  repeat refine List.forall_mem_cons.mpr ⟨hasBraces_ofList (by decide), ?_⟩
  intro line hline
  contradiction

theorem not_within_of_hasBraces {cs rest : List Char} (h : hasBraces cs = false)
    : ¬ '\x7b' :: '\x7b' :: rest <:+: cs := by
  induction cs with
  | nil => simp
  | cons c cs ih =>
    intro hwithin
    cases cs with
    | nil => simpa using hwithin.length_le
    | cons c' cs =>
      rw [hasBraces, Bool.or_eq_false_iff] at h
      rw [List.infix_cons_iff] at hwithin
      rcases hwithin with hstarts | hwithin
      . rw [List.cons_prefix_cons, List.cons_prefix_cons] at hstarts
        simp [← hstarts.left, ← hstarts.right.left] at h
      . exact ih h.right hwithin

structure ArePlaceholders (pairs : List (List Char × List Char)) : Prop where
  quote : ∀ pair ∈ pairs, '"' ∉ pair.fst
  newline : ∀ pair ∈ pairs, '\n' ∉ pair.fst
  braces : ∀ pair ∈ pairs, ∃ rest, pair.fst = '\x7b' :: '\x7b' :: rest

section Lines

variable {pairs : List (List Char × List Char)} (h : ArePlaceholders pairs)
include h

theorem replaceEach_of_hasBraces {cs : List Char} (hcs : hasBraces cs = false)
    : replaceEach pairs cs = cs := by
  apply replaceEach_eq_self
  intro pair hpair
  rcases h.braces pair hpair with ⟨rest, hpattern⟩
  rw [hpattern]
  exact not_within_of_hasBraces hcs

theorem ArePlaceholders.ne_nil : ∀ pair ∈ pairs, pair.fst ≠ [] := by
  intro pair hpair
  rcases h.braces pair hpair with ⟨rest, hpattern⟩
  rw [hpattern]
  simp

theorem replaceEach_lines {lines : List String} (hlines : ∀ line ∈ lines, hasBraces line.toList = false)
    (cs : List Char)
    : replaceEach pairs (lines.flatMap withNewline ++ cs)
        =
      lines.flatMap withNewline ++ replaceEach pairs cs := by
  induction lines with
  | nil => rfl
  | cons line lines ih =>
    rw [List.forall_mem_cons] at hlines
    rw [List.flatMap_cons, List.append_assoc, List.append_assoc, withNewline, List.append_assoc,
      List.append_assoc]
    change replaceEach pairs (line.toList ++ '\n' :: (lines.flatMap withNewline ++ cs)) = _
    rw [replaceEach_append_cons h.newline h.ne_nil, replaceEach_of_hasBraces h hlines.left,
      ih hlines.right]
    rfl

theorem replaceEach_slot {name : String} (hname : hasBraces (name.toList ++ ['=']) = false)
    (value rest : List Char)
    : replaceEach pairs (slot name value rest)
        =
      slot name (replaceEach pairs value) (replaceEach pairs rest) := by
  have hslot : slot name value rest
      = (name.toList ++ ['=']) ++ '"' :: (value ++ '"' :: ([] ++ '\n' :: rest)) := by
    simp [slot]
  rw [hslot, replaceEach_append_cons h.quote h.ne_nil, replaceEach_append_cons h.quote h.ne_nil,
    replaceEach_append_cons h.newline h.ne_nil, replaceEach_of_hasBraces h hname]
  simp [slot]
  rfl

theorem replaceEach_scriptWith (serverUrl project ref token : List Char)
    : replaceEach pairs (scriptWith serverUrl project ref token)
        =
      scriptWith (replaceEach pairs serverUrl) (replaceEach pairs project) (replaceEach pairs ref)
        (replaceEach pairs token) := by
  have hafter := replaceEach_lines h hasBraces_after []
  rw [List.append_nil, show replaceEach pairs [] = [] from rfl, List.append_nil] at hafter
  unfold scriptWith
  rw [replaceEach_lines h hasBraces_before, replaceEach_slot h (by decide),
    replaceEach_slot h (by decide), replaceEach_slot h (by decide), replaceEach_slot h (by decide),
    hafter]

end Lines

variable {values : InstallValues}

theorem arePlaceholders_of_subset {pairs : List (List Char × List Char)}
    (h : ∀ pair ∈ pairs, pair.fst ∈ ["SERVER_URL", "PROJECT", "REF", "TOKEN"].map placeholder)
    : ArePlaceholders pairs where
  quote pair hpair := by
    have hall : ∀ pattern ∈ ["SERVER_URL", "PROJECT", "REF", "TOKEN"].map placeholder,
      '"' ∉ pattern := by decide
    exact hall _ (h pair hpair)
  newline pair hpair := by
    have hall : ∀ pattern ∈ ["SERVER_URL", "PROJECT", "REF", "TOKEN"].map placeholder,
      '\n' ∉ pattern := by decide
    exact hall _ (h pair hpair)
  braces pair hpair := by
    have hall : ∀ pattern ∈ ["SERVER_URL", "PROJECT", "REF", "TOKEN"].map placeholder,
      pattern = '\x7b' :: '\x7b' :: pattern.drop 2 := by decide
    exact ⟨_, hall _ (h pair hpair)⟩

theorem replace_scriptWith {name : String} (hname : name ∈ ["SERVER_URL", "PROJECT", "REF", "TOKEN"])
    (replacement serverUrl project ref token : List Char)
    : replace (placeholder name) replacement (scriptWith serverUrl project ref token)
        =
      scriptWith (replace (placeholder name) replacement serverUrl)
        (replace (placeholder name) replacement project) (replace (placeholder name) replacement ref)
        (replace (placeholder name) replacement token) := by
  apply replaceEach_scriptWith
  apply arePlaceholders_of_subset
  intro pair hpair
  rw [List.mem_singleton] at hpair
  rw [hpair]
  exact List.mem_map_of_mem hname

theorem replace_placeholder_self (name : String) (replacement : List Char)
    : replace (placeholder name) replacement (placeholder name) = replacement := by
  apply replaceEach_pattern
  . simp [placeholder]
  . simp [match?]

theorem replace_placeholder_of_apart {name other : String}
    (h : ¬ placeholder name <:+: placeholder other) (replacement : List Char)
    : replace (placeholder name) replacement (placeholder other) = placeholder other := by
  apply replaceEach_eq_self
  simpa using h

namespace InstallValues

theorem render_eq (values : InstallValues)
    : values.render
        =
      scriptWith
        (replace (placeholder "TOKEN") values.token.toList
          (replace (placeholder "REF") values.ref.toList
            (replace (placeholder "PROJECT") values.project.toList values.serverUrl.toList)))
        (replace (placeholder "TOKEN") values.token.toList
          (replace (placeholder "REF") values.ref.toList values.project.toList))
        (replace (placeholder "TOKEN") values.token.toList values.ref.toList)
        values.token.toList := by
  unfold render
  dsimp only
  rw [installSh_eq, replace_scriptWith (by simp), replace_scriptWith (by simp),
    replace_scriptWith (by simp), replace_scriptWith (by simp)]
  rw [replace_placeholder_self, @replace_placeholder_of_apart "SERVER_URL" "PROJECT" (by decide),
    replace_placeholder_self, @replace_placeholder_of_apart "SERVER_URL" "REF" (by decide),
    @replace_placeholder_of_apart "PROJECT" "REF" (by decide), replace_placeholder_self,
    @replace_placeholder_of_apart "SERVER_URL" "TOKEN" (by decide), @replace_placeholder_of_apart "PROJECT" "TOKEN" (by decide),
    @replace_placeholder_of_apart "REF" "TOKEN" (by decide), replace_placeholder_self]

theorem replaceEach_installSh (values : InstallValues)
    : replaceEach values.pairs installSh
        =
      scriptWith values.serverUrl.toList values.project.toList values.ref.toList
        values.token.toList := by
  have hpairs : ArePlaceholders values.pairs := by
    apply arePlaceholders_of_subset
    simp [pairs]
  have heach : ∀ {name : String} {value : List Char}, placeholder name ≠ [] →
      match? values.pairs (placeholder name) = some (placeholder name, value) →
        replaceEach values.pairs (placeholder name) = value := replaceEach_pattern
  rw [installSh_eq, replaceEach_scriptWith hpairs, @heach "SERVER_URL" _ (by decide) rfl,
    @heach "PROJECT" _ (by decide) rfl, @heach "REF" _ (by decide) rfl,
    @heach "TOKEN" _ (by decide) rfl]

end InstallValues

-- How the shell reads the script

theorem dropLines_flatMap {lines : List String} (hlines : ∀ line ∈ lines, '\n' ∉ line.toList)
    (cs : List Char)
    : dropLines lines.length (lines.flatMap withNewline ++ cs) = cs := by
  induction lines with
  | nil => rfl
  | cons line lines ih =>
    rw [List.forall_mem_cons] at hlines
    have hall : ∀ c ∈ line.toList, decide (c ≠ '\n') := by
      intro c hc
      rw [decide_eq_true_eq]
      rintro rfl
      exact hlines.left hc
    rw [List.length_cons, dropLines, List.flatMap_cons, withNewline, List.append_assoc,
      List.append_assoc, List.dropWhile_append_of_pos hall]
    exact ih hlines.right

theorem newline_notMem_ofList {cs : List Char} (h : '\n' ∉ cs) : '\n' ∉ (String.ofList cs).toList := by
  rw [String.toList_ofList]
  exact h

theorem newline_notMem_before : ∀ line ∈ installShLines.take 8, '\n' ∉ line.toList := by
  change ∀ line ∈ _ :: _, _
  repeat refine List.forall_mem_cons.mpr ⟨newline_notMem_ofList (by decide), ?_⟩
  intro line hline
  contradiction

theorem dropLines_scriptWith (serverUrl project ref token : List Char)
    : dropLines 4 (scriptWith serverUrl project ref token)
        =
      slot "SERVER_URL" serverUrl (slot "PROJECT" project (slot "REF" ref (slot "TOKEN" token
        ((installShLines.drop 8).flatMap withNewline)))) := by
  have hbefore : ∀ line ∈ installShLines.take 4, '\n' ∉ line.toList := by
    intro line hline
    apply newline_notMem_before line
    exact (List.take_prefix_take_left (by omega)).subset hline
  exact dropLines_flatMap hbefore _

theorem dropLines_installSh : dropLines 8 installSh = (installShLines.drop 8).flatMap withNewline := by
  have hlines : installSh
      = (installShLines.take 8).flatMap withNewline ++ (installShLines.drop 8).flatMap withNewline := by
    rw [← List.flatMap_append, List.take_append_drop]
    rfl
  rw [hlines]
  exact dropLines_flatMap newline_notMem_before _

namespace InstallValues

theorem readAssignments_iff (values : InstallValues)
    : Shell.readAssignments 4
          (dropLines 4 (scriptWith values.serverUrl.toList values.project.toList values.ref.toList
            values.token.toList))
          = some (values.assignments, dropLines 8 installSh)
        ↔
      ∀ assignment ∈ values.assignments, Shell.isVerbatim assignment.snd := by
  rw [dropLines_scriptWith, dropLines_installSh]
  unfold slot assignments
  rw [Shell.readAssignments_succ_iff (by decide) (by decide),
    Shell.readAssignments_succ_iff (by decide) (by decide),
    Shell.readAssignments_succ_iff (by decide) (by decide),
    Shell.readAssignments_succ_iff (by decide) (by decide)]
  simp [Shell.readAssignments]

theorem slot_inj {name : String} {value value' rest rest' : List Char} (hvalue : '"' ∉ value)
    (hvalue' : '"' ∉ value') (h : slot name value rest = slot name value' rest')
    : value = value' ∧ rest = rest' := by
  unfold slot at h
  rw [List.append_cancel_left_eq, List.cons.injEq, List.cons.injEq,
    Separator.append_cons_inj_left hvalue hvalue', List.cons.injEq] at h
  exact ⟨h.right.right.left, h.right.right.right.right⟩

theorem carriedBy_render_iff (values : InstallValues)
    : values.CarriedBy values.render ↔ values.AreInert := by
  unfold CarriedBy
  rw [replaceEach_installSh]
  constructor
  . rintro ⟨hscript, hread⟩
    rw [hscript, readAssignments_iff] at hread
    have hquote : ∀ assignment ∈ values.assignments, '"' ∉ assignment.snd :=
      fun assignment hmem => Shell.quote_notMem_of_isVerbatim (hread assignment hmem)
    simp only [assignments, List.forall_mem_cons] at hquote
    rcases hquote with ⟨hserver, hproject, href, htoken, _⟩
    rw [render_eq] at hscript
    unfold scriptWith at hscript
    rw [List.append_cancel_left_eq] at hscript
    have hscript := slot_inj (notMem_replace htoken (notMem_replace href
      (notMem_replace hproject hserver))) hserver hscript
    have hscript' := slot_inj (notMem_replace htoken (notMem_replace href hproject)) hproject
      hscript.right
    have hscript'' := slot_inj (notMem_replace htoken href) href hscript'.right
    exact ⟨hread, hscript.left, hscript'.left, hscript''.left⟩
  . intro h
    rw [render_eq, h.serverUrl, h.project, h.ref, readAssignments_iff]
    exact ⟨rfl, h.verbatim⟩

end InstallValues

/--
The script that is served carries the values of a request iff none of them means anything to the shell,
or contains what a later call replaces by something else.
-/
theorem install_script_carries_iff (hostHeader : Option Bytes) (project : String)
    (gitRef token : Option String)
    : ∃ script,
        (installScriptHandler hostHeader project gitRef token).body = .text script
          ∧
        let values := installScriptHandler.values hostHeader project gitRef token
        (values.CarriedBy script.toList ↔ values.AreInert) := by
  refine ⟨_, rfl, ?_⟩
  dsimp only
  rw [String.toList_ofList]
  exact InstallValues.carriedBy_render_iff _

-- The reference is run as a command.
theorem install_script_runs_reference
    : ¬ ∀ (hostHeader : Option Bytes) (project : String) (gitRef token : Option String),
      ∃ script,
        (installScriptHandler hostHeader project gitRef token).body = .text script
          ∧
        (installScriptHandler.values hostHeader project gitRef token).CarriedBy script.toList := by
  intro h
  rcases h none "myapp" (some "$(id)") none with ⟨_, hbody, hcarried⟩
  injection hbody with hscript
  rw [← hscript, String.toList_ofList, InstallValues.carriedBy_render_iff] at hcarried
  have hverbatim := hcarried.verbatim ("REF".toList, "$(id)".toList) (by simp [InstallValues.assignments,
    installScriptHandler.values])
  exact absurd hverbatim (by decide)

end Koval

import Mathlib.Data.List.TakeWhile
import MethodLines.Command.SettingsFile
import MethodLines.Proofs.FileTree.Following
import MethodLines.Proofs.Host

/-! Which settings file counts. The candidates are tried from the nearest one outwards. One
that cannot be loaded is passed over, so that the search goes on behind it, and the first
one that can be loaded ends the search: neither what is found nor what is logged on the way
depends on any other file. -/
namespace MethodLines.SettingsFile

open World Log

variable {w : World} {start path : Text} {paths before after passed : List Text}
  {settings : Settings} {found : Option (Text × Settings)} {find other : Text → Finding}

def finding (w : World) (path : Text) : Finding := .ofRead (w.tree.read w.folder path)

/-- What stands at a path: nothing, what cannot be read or is no text, a text that holds no
settings, or settings. -/
inductive Stands (w : World) (path : Text) : Finding → Prop where
  | absent : w.tree.read w.folder path = .error .missing → Stands w path .absent
  | unreadable {fault : FileFault} : w.tree.read w.folder path = .error fault →
      fault ≠ .missing → Stands w path (.unreadable fault)
  | undecodable {bytes : ByteArray} : w.tree.read w.folder path = .ok bytes →
      Text.ofBytes? bytes = none → Stands w path (.unreadable .notUtf8)
  | invalid {bytes : ByteArray} {t : Text} : w.tree.read w.folder path = .ok bytes →
      Text.ofBytes? bytes = some t → Settings.ofText? t = none → Stands w path .invalid
  | valid {bytes : ByteArray} {t : Text} {settings : Settings} :
      w.tree.read w.folder path = .ok bytes → Text.ofBytes? bytes = some t →
      Settings.ofText? t = some settings → Stands w path (.valid settings)

theorem stands_finding (w : World) (path : Text) : Stands w path (finding w path) := by
  unfold finding
  cases read : w.tree.read w.folder path with
  | error fault =>
    by_cases missing : fault = .missing
    · subst missing
      exact .absent read
    · rw [Finding.ofRead.eq_2 _ missing]
      exact .unreadable read missing
  | ok bytes =>
    cases decoded : Text.ofBytes? bytes with
    | none =>
      rw [Finding.ofRead, decoded]
      exact .undecodable read decoded
    | some t =>
      rw [Finding.ofRead, decoded]
      dsimp only
      cases held : Settings.ofText? t with
      | none => exact .invalid read decoded held
      | some settings => exact .valid read decoded held

theorem finding_of_text {t : Text} (held : w.tree.read w.folder path = .ok t.bytes) :
    finding w path = match Settings.ofText? t with
      | none => .invalid
      | some settings => .valid settings := by
  unfold finding
  rewrite [held, Finding.ofRead, Text.ofBytes?_bytes]
  rfl

/-- A search through some candidates: those that are passed over because they cannot be
loaded, and the first one that can be, with what it holds. -/
inductive Search (find : Text → Finding) (paths : List Text) :
    List Text → Option (Text × Settings) → Prop where
  | found {before after : List Text} {path : Text} {settings : Settings} :
      paths = before ++ path :: after → (∀ p ∈ before, (find p).settings? = none) →
      find path = .valid settings → Search find paths before (some (path, settings))
  | exhausted : (∀ p ∈ paths, (find p).settings? = none) → Search find paths paths none

def invalidNotice : Record where
  level := .warn
  origin := .settings
  message := "Failed to parse " ++ Settings.fileName ++ ". Using defaults."

def Finding.warning? (path : Text) : Finding → Option Record
  | .unreadable fault =>
    some ⟨.warn, .settings, "Failed to read config file " ++ path ++ ": " ++ fault.message⟩
  | .invalid => some invalidNotice
  | .absent | .valid _ => none

/-- The warnings about candidates that are passed over, one for each that is there. -/
def warnings (find : Text → Finding) (passed : List Text) : List Record :=
  passed.filterMap fun path => (find path).warning? path

def conclusion : Option (Text × Settings) → Settings × Record
  | some (path, settings) => (settings, ⟨.debug, .settings, "Loaded config from " ++ path⟩)
  | none => ({}, ⟨.debug, .settings,
    "No config found after checking 10 directories. Using default config."⟩)

theorem length_ancestors_le (count : Nat) (path : Text) :
    (Path.ancestors count path).length ≤ count := by
  induction count generalizing path with
  | zero => simp [Path.ancestors]
  | succ count ih =>
    rw [Path.ancestors, List.length_cons]
    cases Path.parent? path with
    | none => simp
    | some parent => exact Nat.succ_le_succ (ih parent)

theorem length_candidates_le (start : Text) : (candidates start).length ≤ searchDepth := by
  rw [candidates, List.length_map]
  exact length_ancestors_le searchDepth start

theorem eq_valid_of_settings? {f : Finding} (loaded : f.settings? = some settings) :
    f = .valid settings := by
  cases f with
  | valid loadedSettings =>
    obtain rfl : loadedSettings = settings := Option.some.inj loaded
    rfl
  | absent | unreadable fault | invalid => cases loaded

theorem exists_search (find : Text → Finding) (paths : List Text) :
    ∃ passed found, Search find paths passed found := by
  induction paths with
  | nil => exact ⟨[], none, .exhausted (by simp)⟩
  | cons path paths ih =>
    cases loaded : (find path).settings? with
    | some settings =>
      have valid := eq_valid_of_settings? loaded
      exact ⟨[], some (path, settings), @Search.found _ _ [] paths _ _ rfl (by simp) valid⟩
    | none =>
      obtain ⟨passed, found, search⟩ := ih
      cases search with
      | found split skipped valid =>
        exact ⟨path :: passed, _, .found (by rw [split]; rfl)
          (List.forall_mem_cons.mpr ⟨loaded, skipped⟩) valid⟩
      | exhausted skipped =>
        exact ⟨path :: paths, none, .exhausted (List.forall_mem_cons.mpr ⟨loaded, skipped⟩)⟩

/-- A search depends on the candidates up to the one that ends it. -/
theorem Search.congr (search : Search find paths passed found)
    (agree : ∀ p ∈ passed ++ (found.map Prod.fst).toList, other p = find p) :
    Search other paths passed found := by
  cases search with
  | found split skipped valid =>
    refine .found split (fun p member => ?_) ((agree _ (by simp)).trans valid)
    rw [agree p (List.mem_append_left _ member)]
    exact skipped p member
  | exhausted skipped =>
    refine .exhausted fun p member => ?_
    rw [agree p (List.mem_append_left _ member)]
    exact skipped p member

theorem Search.behind (search : Search find after passed found)
    (skipped : ∀ p ∈ before, (find p).settings? = none) :
    Search find (before ++ after) (before ++ passed) found := by
  cases search with
  | found split others valid =>
    refine .found (by rw [split, List.append_assoc]) ?_ valid
    exact List.forall_mem_append.mpr ⟨skipped, others⟩
  | exhausted others => exact .exhausted (List.forall_mem_append.mpr ⟨skipped, others⟩)

theorem Search.behind_invalid (search : Search find after passed found)
    (skipped : ∀ p ∈ before, (find p).settings? = none) (invalid : find path = .invalid) :
    Search find (before ++ path :: after) (before ++ path :: passed) found := by
  rw [List.append_cons before path after, List.append_cons before path passed]
  apply search.behind
  rw [List.forall_mem_append, List.forall_mem_singleton, invalid]
  exact ⟨skipped, rfl⟩

theorem Search.isPrefix (search : Search find paths passed found) : passed <+: paths := by
  cases search with
  | found split _ _ => exact split ▸ List.prefix_append _ _
  | exhausted _ => exact List.prefix_rfl

theorem Search.skipped (search : Search find paths passed found) :
    ∀ p ∈ passed, (find p).settings? = none := by
  cases search with
  | found _ skipped _ => exact skipped
  | exhausted skipped => exact skipped

theorem Search.passed_eq (search : Search find paths passed found) :
    passed = paths.takeWhile fun p => (find p).settings?.isNone := by
  cases search with
  | found split skipped valid =>
    rw [split, List.takeWhile_append_of_pos (by simpa using skipped), List.takeWhile_cons_of_neg,
      List.append_nil]
    simp [valid, Finding.settings?]
  | exhausted skipped =>
    rw [eq_comm, List.takeWhile_eq_self_iff]
    simpa using skipped

theorem Search.unique {passed' : List Text} {found' : Option (Text × Settings)}
    (search : Search find paths passed found) (again : Search find paths passed' found') :
    passed = passed' ∧ found = found' := by
  have same : passed = passed' := search.passed_eq.trans again.passed_eq.symm
  subst same
  refine ⟨rfl, ?_⟩
  cases search with
  | @found _ after path settings split _ valid =>
    cases again with
    | @found _ after' path' settings' split' _ valid' =>
      obtain ⟨rfl, rfl⟩ := List.cons.inj (List.append_cancel_left (split.symm.trans split'))
      rw [valid] at valid'
      cases valid'
      rfl
    | exhausted skipped => simp at split
  | exhausted _ =>
    cases again with
    | found split => simp at split
    | exhausted _ => rfl

theorem record?_eq_warning? (path : Text) {f : Finding} (skipped : f.settings? = none) :
    f.record? path = f.warning? path := by
  cases f with
  | valid settings => cases skipped
  | absent | unreadable fault | invalid => rfl

/-- One candidate: what it turns out to be is logged, and decides whether the search goes on. -/
theorem run_firstLoadable_cons (w : World) (path : Text) (rest : List Text) :
    (firstLoadable (path :: rest) : StateM World _).run w =
      (match (finding w path).settings? with
        | some settings => pure (some settings)
        | none => firstLoadable rest : StateM World _).run
          (w.logging ((finding w path).record? path).toList) := by
  unfold finding
  rw [firstLoadable, run_bind, run_readFile]
  generalize Finding.ofRead (w.tree.read w.folder path) = f
  cases f with
  | absent => exact congrArg _ (logging_nil w).symm
  | unreadable fault | invalid | valid settings => rfl

theorem run_firstLoadable_skipped (skipped : ∀ p ∈ before, (finding w p).settings? = none)
    (rest : List Text) :
    (firstLoadable (before ++ rest) : StateM World _).run w =
      (firstLoadable rest : StateM World _).run (w.logging (warnings (finding w) before)) := by
  induction before generalizing w with
  | nil => rw [warnings, List.filterMap_nil, logging_nil]; rfl
  | cons path before ih =>
    obtain ⟨first, others⟩ := List.forall_mem_cons.mp skipped
    have logged : warnings (finding w) (path :: before) =
        ((finding w path).warning? path).toList ++ warnings (finding w) before := by
      unfold warnings
      rw [List.filterMap_cons]
      cases (finding w path).warning? path <;> rfl
    rw [List.cons_append, run_firstLoadable_cons, first, record?_eq_warning? path first, logged,
      ← logging_append]
    exact ih others

theorem run_firstLoadable_valid (valid : finding w path = .valid settings) (rest : List Text) :
    (firstLoadable (path :: rest) : StateM World _).run w =
      (some settings, w.logging [(conclusion (some (path, settings))).2]) := by
  rw [run_firstLoadable_cons, valid]
  rfl

theorem run_loadFrom (search : Search (finding w) (candidates start) passed found) :
    (loadFrom start : StateM World _).run w = ((conclusion found).1,
      w.logging (warnings (finding w) passed ++ [(conclusion found).2])) := by
  rw [loadFrom, run_bind, ← logging_append]
  cases search with
  | found split skipped valid =>
    rw [split, run_firstLoadable_skipped skipped,
      run_firstLoadable_valid (w := w.logging (warnings (finding w) passed)) valid]
    rfl
  | exhausted skipped =>
    have searched := run_firstLoadable_skipped skipped []
    rw [List.append_nil] at searched
    rw [searched]
    rfl

/-- Loading settings changes no file. -/
theorem run_loadFrom_logging (w : World) (start : Text) :
    ∃ settings records,
      (loadFrom start : StateM World _).run w = (settings, w.logging records) := by
  obtain ⟨passed, found, search⟩ := exists_search (finding w) (candidates start)
  exact ⟨_, _, run_loadFrom search⟩

theorem run_load_logging (w : World) :
    ∃ settings records, (load : StateM World _).run w = (settings, w.logging records) := by
  obtain ⟨found, current⟩ := run_currentFolder w
  rw [load, run_bind, current]
  cases found with
  | ok folder => exact run_loadFrom_logging w folder
  | error fault => exact ⟨_, _, rfl⟩

/-- The nearest settings file that can be loaded counts, and the defaults do if there is
none. It is looked for in a folder and the nine above it. One warning is logged for each nearer
file that is there, and at last what the search came to. What other files hold does not matter to
any of this. -/
theorem loadFrom_nearest (w : World) (start : Text) :
    let tried := (Path.ancestors 10 start).map fun folder => Path.join folder ".sigparse.toml"
    tried.length ≤ 10 ∧ (∀ path ∈ tried, Stands w path (finding w path)) ∧
    ∃ passed found, Search (finding w) tried passed found ∧
      (loadFrom start : StateM World _).run w = ((conclusion found).1,
        w.logging (warnings (finding w) passed ++ [(conclusion found).2])) ∧
      ∀ tree, FileTree.AgreeExcept
          (fun place => ∀ path ∈ passed ++ (found.map Prod.fst).toList,
            w.tree.locate w.folder path ≠ .ok place) w.tree tree →
        (loadFrom start : StateM World _).run { w with tree } = ((conclusion found).1,
          { w with tree }.logging (warnings (finding w) passed ++ [(conclusion found).2])) := by
  intro tried
  have listed : tried = candidates start := rfl
  rw [listed]
  obtain ⟨passed, found, search⟩ := exists_search (finding w) (candidates start)
  refine ⟨length_candidates_le start, fun path _ => stands_finding w path, passed, found, search,
    run_loadFrom search, ?_⟩
  intro tree agree
  have same : ∀ path ∈ passed ++ (found.map Prod.fst).toList,
      finding { w with tree } path = finding w path := by
    intro path looked
    have read : w.tree.read w.folder path = tree.read w.folder path :=
      agree.read_eq fun place located apart => apart path looked located
    unfold finding
    rw [read]
  have logged : warnings (finding { w with tree }) passed = warnings (finding w) passed := by
    apply List.filterMap_congr
    intro path member
    rw [same path (List.mem_append_left _ member)]
  rw [← logged]
  exact run_loadFrom (search.congr same)

/-- A world with settings files of all kinds on the way up from its deepest folder: first there is
none, then a folder in its place, then one that is no document, then a valid one, and another. -/
def nested (outermost : Text) : World where
  tree := ⟨[
    ([".sigparse.toml"], .file outermost.bytes),
    (["a"], .folder), (["a", ".sigparse.toml"], .file (Text.bytes "[batch]\nparallel=false")),
    (["a", "b"], .folder), (["a", "b", ".sigparse.toml"], .file (Text.bytes "not = [valid")),
    (["a", "b", "c"], .folder), (["a", "b", "c", ".sigparse.toml"], .folder),
    (["a", "b", "c", "d"], .folder)]⟩

theorem finding_nested (outermost : Text) :
    finding (nested outermost) "/a/b/c/d/.sigparse.toml" = .absent ∧
      finding (nested outermost) "/a/b/c/.sigparse.toml" = .unreadable .isFolder ∧
      finding (nested outermost) "/a/b/.sigparse.toml" = .invalid ∧
      finding (nested outermost) "/a/.sigparse.toml" = .valid { batch := ⟨false, false⟩ } := by
  have unread : Settings.ofText? "not = [valid" = none := by decide +kernel
  have held : Settings.ofText? "[batch]\nparallel=false" = some { batch := ⟨false, false⟩ } := by
    decide +kernel
  refine ⟨rfl, rfl, ?_, ?_⟩
  · rw [finding_of_text (t := "not = [valid") rfl, unread]
  · rw [finding_of_text (t := "[batch]\nparallel=false") rfl, held]

theorem search_nested (outermost : Text) :
    Search (finding (nested outermost)) (candidates "/a/b/c/d")
      ["/a/b/c/d/.sigparse.toml", "/a/b/c/.sigparse.toml", "/a/b/.sigparse.toml"]
      (some ("/a/.sigparse.toml", { batch := ⟨false, false⟩ })) := by
  have split : candidates "/a/b/c/d" = ["/a/b/c/d/.sigparse.toml", "/a/b/c/.sigparse.toml",
      "/a/b/.sigparse.toml"] ++ "/a/.sigparse.toml" :: ["/.sigparse.toml"] := rfl
  obtain ⟨absent, unreadable, invalid, valid⟩ := finding_nested outermost
  refine .found split ?_ valid
  rw [List.forall_mem_cons, List.forall_mem_cons, List.forall_mem_singleton, absent, unreadable,
    invalid]
  exact ⟨rfl, rfl, rfl⟩

theorem nested_agree (t u : Text) :
    FileTree.AgreeExcept (· = ([".sigparse.toml"] : Place)) (nested t).tree (nested u).tree := by
  intro place
  by_cases outermost : place = ([".sigparse.toml"] : Place)
  · subst outermost
    exact .inr ⟨rfl, _, _, rfl, rfl⟩
  · have apart : (place == ([".sigparse.toml"] : Place)) = false := beq_false_of_ne outermost
    left
    simp only [FileTree.entry?, nested, List.lookup_cons, apart]

theorem located_nested (outermost : Text) : ∀ path ∈ [("/a/b/c/d/.sigparse.toml" : Text),
    "/a/b/c/.sigparse.toml", "/a/b/.sigparse.toml", "/a/.sigparse.toml"],
    (nested outermost).tree.locate [] path ≠ .ok [".sigparse.toml"] := by
  have absent : (nested outermost).tree.locate [] "/a/b/c/d/.sigparse.toml" =
    .error .missing := rfl
  have unreadable : (nested outermost).tree.locate [] "/a/b/c/.sigparse.toml" =
    .ok ["a", "b", "c", ".sigparse.toml"] := rfl
  have invalid : (nested outermost).tree.locate [] "/a/b/.sigparse.toml" =
    .ok ["a", "b", ".sigparse.toml"] := rfl
  have valid : (nested outermost).tree.locate [] "/a/.sigparse.toml" =
    .ok ["a", ".sigparse.toml"] := rfl
  rw [List.forall_mem_cons, List.forall_mem_cons, List.forall_mem_cons, List.forall_mem_singleton,
    absent, unreadable, invalid, valid]
  decide

/-- The file in the root does not matter, because a nearer one can be loaded. -/
theorem loadFrom_nearest_nested :
    let settings : Settings := { batch := ⟨false, false⟩ }
    let log : List Record := [
      ⟨.warn, .settings,
        "Failed to read config file /a/b/c/.sigparse.toml: Is a directory (os error 21)"⟩,
      ⟨.warn, .settings, "Failed to parse .sigparse.toml. Using defaults."⟩,
      ⟨.debug, .settings, "Loaded config from /a/.sigparse.toml"⟩]
    ∀ outermost, (loadFrom "/a/b/c/d" : StateM World _).run (nested outermost) =
      (settings, (nested outermost).logging log) := by
  intro settings log outermost
  obtain ⟨_, _, passed, found, search, _, others⟩ := loadFrom_nearest (nested []) "/a/b/c/d"
  obtain ⟨rfl, rfl⟩ := search.unique (search_nested [])
  obtain ⟨absent, unreadable, invalid, _⟩ := finding_nested []
  have logged : warnings (finding (nested [])) ["/a/b/c/d/.sigparse.toml",
      "/a/b/c/.sigparse.toml", "/a/b/.sigparse.toml"] = log.take 2 := by
    simp only [warnings, List.filterMap_cons, absent, unreadable, invalid]
    rfl
  rw [logged] at others
  exact others (nested outermost).tree fun place =>
    (nested_agree [] outermost place).imp_right fun ⟨root, kept⟩ => ⟨root ▸ located_nested [], kept⟩

theorem warning?_eq_notice {f : Finding} (noticed : f.warning? path = some invalidNotice) :
    f = .invalid := by
  cases f with
  | invalid => rfl
  | absent | valid settings => cases noticed
  | unreadable fault =>
    have message := congrArg Record.message (Option.some.inj noticed)
    have start : ("Failed to r" : Text) = "Failed to p" := congrArg (List.take 11) message
    exact absurd start (by decide)

theorem notice_mem_iff (search : Search (finding w) (candidates start) passed found) :
    invalidNotice ∈ warnings (finding w) passed ++ [(conclusion found).2] ↔
      ∃ path ∈ passed, finding w path = .invalid := by
  have last : invalidNotice ≠ (conclusion found).2 := by
    intro same
    have level := congrArg Record.level same
    cases found <;> cases level
  rw [List.mem_append, List.mem_singleton, or_iff_left last, warnings, List.mem_filterMap]
  refine exists_congr fun path => and_congr_right fun _ => ⟨warning?_eq_notice, ?_⟩
  intro invalid
  rw [invalid]
  rfl

/-- The notice of an invalid file promises the defaults, but the search goes on behind the
file. It is logged if such a file comes before all that can be loaded; and the promise is
kept if and only if nothing else than the defaults is loaded from behind it. -/
theorem loadFrom_after_notice (w : World) (start : Text) :
    ∃ settings log, (loadFrom start : StateM World _).run w = (settings, w.logging log) ∧
      (invalidNotice ∈ log ↔ ∃ before path after, candidates start = before ++ path :: after ∧
        (∀ p ∈ before, (finding w p).settings? = none) ∧ finding w path = .invalid) ∧
      ∀ before path after, candidates start = before ++ path :: after →
        (∀ p ∈ before, (finding w p).settings? = none) → finding w path = .invalid →
        (settings = {} ↔ ∀ nearer p further loaded, after = nearer ++ p :: further →
          (∀ q ∈ nearer, (finding w q).settings? = none) → finding w p = .valid loaded →
          loaded = {}) := by
  obtain ⟨passed, found, search⟩ := exists_search (finding w) (candidates start)
  have ran := run_loadFrom search
  refine ⟨_, _, ran, ?_, ?_⟩
  · rw [notice_mem_iff search]
    constructor
    · rintro ⟨path, member, invalid⟩
      obtain ⟨before, between, split⟩ := List.append_of_mem member
      obtain ⟨after, whole⟩ := search.isPrefix
      refine ⟨before, path, between ++ after, ?_, ?_, invalid⟩
      · rw [← whole, split, List.append_assoc, List.cons_append]
      · intro p listed
        exact search.skipped p (by rw [split]; exact List.mem_append_left _ listed)
    · rintro ⟨before, path, after, split, skipped, invalid⟩
      obtain ⟨further, found', onwards⟩ := exists_search (finding w) after
      obtain ⟨rfl, _⟩ := search.unique (split ▸ onwards.behind_invalid skipped invalid)
      exact ⟨path, by simp, invalid⟩
  · intro before path after split skipped invalid
    have loaded_eq : ∀ nearer p further loaded, after = nearer ++ p :: further →
        (∀ q ∈ nearer, (finding w q).settings? = none) → finding w p = .valid loaded →
        (conclusion found).1 = loaded := by
      intro nearer p further loaded behind others valid
      have onwards : Search (finding w) after nearer (some (p, loaded)) :=
        .found behind others valid
      obtain ⟨_, rfl⟩ := search.unique (split ▸ onwards.behind_invalid skipped invalid)
      rfl
    constructor
    · intro defaults nearer p further loaded behind others valid
      rw [← loaded_eq nearer p further loaded behind others valid, defaults]
    · intro promised
      obtain ⟨nearer, found', onwards⟩ := exists_search (finding w) after
      obtain ⟨_, rfl⟩ := search.unique (split ▸ onwards.behind_invalid skipped invalid)
      cases onwards with
      | found behind others valid => exact promised _ _ _ _ behind others valid
      | exhausted _ => rfl

/-- The settings of an outer folder are loaded in spite of the notice. -/
theorem notice_without_defaults : ¬ ∀ (w : World) (start : Text) (settings : Settings)
    (log : List Record), (loadFrom start : StateM World _).run w = (settings, w.logging log) →
      invalidNotice ∈ log → settings = {} := by
  intro always
  have search := search_nested []
  have noticed := (notice_mem_iff search).mpr ⟨_, by simp, (finding_nested []).2.2.1⟩
  have defaults := always (nested []) "/a/b/c/d" _ _ (run_loadFrom search) noticed
  revert defaults
  decide

end MethodLines.SettingsFile

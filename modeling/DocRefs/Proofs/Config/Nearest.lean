import DocRefs.Config.Load
import DocRefs.Proofs.Location.Ancestor

/-!
# Which configuration is loaded

A search for a configuration looks into a directory and those above it, ten at the most. It takes
the nearest text that describes a configuration: a text that describes none is passed over like a
directory without such a file, and the search goes on above it. So it ends with the defaults after a
nearest text that is rejected exactly where nothing above it describes anything else
(`loadFrom_nearest`, `rejected_not_defaults`).
-/
namespace DocRefs

open Location

/-! ## Files in a directory -/

namespace FileTree

variable (t : FileTree)

/-- The directory that a path leads to. -/
def directoryAt? (path : List Char) : Option (List (List Char)) :=
  ((Path.split path).foldlM t.enter []).toOption.filter fun place =>
    t.entryAt? place = some .directory

/-- The text of the file with a name in the directory that a path leads to. -/
def textIn? (directory name : List Char) : Option String :=
  (t.directoryAt? directory).bind fun place =>
    match t.entryAt? (place ++ [name]) with
    | some (.file text) => some text
    | _ => none

variable {t}

/-- A piece that names nothing makes no difference before another one. -/
theorem enter_void (place : List (List Char)) (piece : List Char) :
    (t.enter place [] >>= fun place => t.enter place piece) = t.enter place piece := by
  cases there : t.entryAt? place with
  | none => simp [enter, there, bind, Except.bind]
  | some entry => cases entry <;> simp [enter, there, bind, Except.bind, Path.isVoid]

theorem enter_of_directory {place : List (List Char)} {piece : List Char}
    (there : t.entryAt? place = some .directory) (solid : Path.isVoid piece = false)
    (down : piece ≠ Path.parentMark) : t.enter place piece = .ok (place ++ [piece]) := by
  simp [enter, there, solid, down]

/-- Nothing is below what is no directory. -/
theorem exists_enter_eq_error {place : List (List Char)}
    (other : t.entryAt? place ≠ some .directory) (piece : List Char) :
    ∃ fault, t.enter place piece = .error fault := by
  cases there : t.entryAt? place with
  | none => simp [enter, there]
  | some entry => cases entry <;> simp_all [enter]

end FileTree

namespace Config

/-! ## Texts of configurations -/

/-- The path of a configuration file leads through the directory that it is written in. -/
theorem foldlM_split_fileIn (files : FileTree) (directory : List Char) :
    (Path.split (fileIn directory).toList).foldlM files.enter [] =
      (Path.split directory).foldlM files.enter [] >>= fun place =>
        files.enter place configFileName.toList := by
  have whole : Path.split configFileName.toList = [configFileName.toList] := by decide
  have cut (front : List Char) : Path.split (front ++ '/' :: configFileName.toList) =
      Path.split front ++ [configFileName.toList] := by
    rw [← whole]
    exact Text.split_append_cons (by decide) _ _
  unfold fileIn
  rw [String.toList_ofList]
  split
  next written =>
    rcases List.eq_nil_or_concat directory with rfl | ⟨front, last, rfl⟩
    · rw [List.nil_append, whole]
      simp [Path.split, Text.split, FileTree.enter_void]
    · -- The slash at the end is one more piece of the directory, which names nothing.
      obtain rfl : last = '/' := by simpa using written
      have ends : Path.split (front ++ ['/']) = Path.split front ++ [[]] :=
        Text.split_append_cons (by decide) _ _
      rw [List.concat_eq_append, List.append_assoc, List.singleton_append, cut, ends]
      simp [List.foldlM_append, FileTree.enter_void]
  next =>
    rw [cut]
    simp [List.foldlM_append]

theorem toOption_read_fileIn (files : FileTree) (directory : List Char) :
    (files.read (fileIn directory)).toOption =
      files.textIn? directory configFileName.toList := by
  have solid : Path.isVoid configFileName.toList = false := by decide
  have down : configFileName.toList ≠ Path.parentMark := by decide
  have written : (fileIn directory).isEmpty = false := by
    unfold fileIn
    split <;> simp [String.isEmpty_eq_false_iff, configFileName]
  unfold FileTree.read FileTree.textIn? FileTree.directoryAt?
  rw [written, foldlM_split_fileIn]
  cases (Path.split directory).foldlM files.enter [] with
  | error fault => rfl
  | ok place =>
    by_cases there : files.entryAt? place = some .directory
    · have entered := FileTree.enter_of_directory there solid down
      have found : (some place).filter (fun place => files.entryAt? place = some .directory) =
          some place := by simp [there]
      simp only [bind, Except.bind, entered, Except.toOption, found, Option.bind_some]
      cases files.entryAt? (place ++ [configFileName.toList]) with
      | none => rfl
      | some entry => cases entry <;> rfl
    · -- Past a file or past nothing the reading stops, and there is no directory to look into.
      obtain ⟨fault, stopped⟩ := FileTree.exists_enter_eq_error there configFileName.toList
      have absent : (some place).filter (fun place => files.entryAt? place = some .directory) =
          none := by simp [there]
      simp only [bind, Except.bind, stopped, Except.toOption, absent, Option.bind_none]
      rfl

/-- The configuration that a text describes, if it describes one. -/
def accepted? (text : String) : Option Config := (parse text).toOption

theorem accepted?_eq_none_iff {text : String} :
    accepted? text = none ↔ ∃ fault, parse text = .error fault := by
  unfold accepted?
  cases parse text <;> simp [Except.toOption]

theorem accepted?_eq_some_iff {text : String} {config : Config} :
    accepted? text = some config ↔ parse text = .ok config := by
  unfold accepted?
  cases parse text <;> simp [Except.toOption]

theorem fault?_eq_none_iff {config : Config} :
    config.fault? = none ↔ config.extensionPrefix ≠ "" ∧
      ∀ category ∈ config.categories, category.pointer.toList.head? = some '/' := by
  unfold fault? badCategory?
  split
  next empty => simp [String.isEmpty_iff.mp empty]
  next named =>
    rw [String.isEmpty_iff] at named
    simp [named]

/-- A text is accepted if its fields can be read, there is a prefix of extensions, and every category
is written from the root. -/
theorem parse_eq_ok_iff {text : String} {config : Config} :
    parse text = .ok config ↔
      ((Toml.read? text).bind ofFields? = some config) ∧ config.extensionPrefix ≠ "" ∧
        ∀ category ∈ config.categories, category.pointer.toList.head? = some '/' := by
  rw [← fault?_eq_none_iff]
  unfold parse
  cases Toml.read? text with
  | none => simp
  | some fields =>
    dsimp only [Option.bind_some]
    cases ofFields? fields with
    | none => simp
    | some described =>
      dsimp only
      rw [Option.some.injEq]
      cases fault : described.fault? with
      | none =>
        rw [Except.ok.injEq]
        exact ⟨fun same => ⟨same, same ▸ fault⟩, fun both => both.1⟩
      | some _ =>
        -- What is described breaks a rule, so no configuration without fault is described.
        refine iff_of_false nofun ?_
        rintro ⟨rfl, clean⟩
        rw [fault] at clean
        cases clean

/-- The directories that are searched from `start` on, the nearest first. -/
def searched (start : String) : List (List Char) :=
  Path.ancestors searchedDirectories start.toList

/-- The texts of the configuration files in the directories searched, the nearest first. -/
def textsFrom (files : FileTree) (start : String) : List String :=
  (searched start).filterMap fun directory => files.textIn? directory configFileName.toList

theorem toOption_load (files : FileTree) (directory : List Char) :
    (load files (fileIn directory)).toOption =
      (files.textIn? directory configFileName.toList).bind accepted? := by
  rw [← toOption_read_fileIn, load]
  cases files.read (fileIn directory) <;> rfl

/-! ## The search -/

/-- The directories are those from `start` upwards: each is named by a component less than the one
before, as long as there is one. None is left out, and there are ten at the most. -/
structure Upwards (start : List Char) (directories : List (List Char)) : Prop where
  few : directories.length ≤ 10
  gapless : ∀ i < 10, i ≤ (Path.components start).length → i < directories.length
  above : ∀ i directory, directories[i]? = some directory →
    Path.isAbsolute directory = Path.isAbsolute start ∧
      Path.components directory =
        (Path.components start).take ((Path.components start).length - i)

theorem upwards_searched (start : String) : Upwards start.toList (searched start) where
  few := Path.length_ancestors_le _ _
  gapless _ few within := Path.lt_length_ancestors few within
  above _ _ found := Path.getElem?_ancestors found

theorem findSome?_filterMap {α β γ : Type} (f : α → Option β) (g : β → Option γ)
    (elements : List α) :
    (elements.filterMap f).findSome? g = elements.findSome? fun a => (f a).bind g := by
  induction elements with
  | nil => rfl
  | cons a rest ih =>
    rw [List.filterMap_cons, List.findSome?_cons, ← ih]
    cases f a <;> rfl

/-- What loads is the nearest text that describes a configuration. -/
theorem loadFrom_eq (files : FileTree) (start : String) :
    loadFrom files start = ((textsFrom files start).findSome? accepted?).getD {} := by
  rw [textsFrom, findSome?_filterMap, loadFrom, searched]
  simp only [toOption_load]

/-- Whatever is loaded keeps the rules for configurations. -/
theorem fault?_loadFrom (files : FileTree) (start : String) :
    (loadFrom files start).fault? = none := by
  rw [loadFrom_eq]
  cases nearest : (textsFrom files start).findSome? accepted? with
  | none => exact fault?_default
  | some config =>
    obtain ⟨text, -, accepts⟩ := List.exists_of_findSome?_eq_some nearest
    rw [Option.getD_some, fault?_eq_none_iff]
    exact (parse_eq_ok_iff.mp (accepted?_eq_some_iff.mp accepts)).2

/-- Without a file the defaults are loaded, and the nearest text if it describes a configuration. If
it describes none, the texts above decide: the nearest configuration among them is loaded, so it is
the defaults exactly if that one is, or there is none. -/
theorem loadFrom_nearest (files : FileTree) (start : String) :
    Upwards start.toList (searched start) ∧
    (textsFrom files start = [] → loadFrom files start = {}) ∧
    ∀ nearest further, textsFrom files start = nearest :: further →
      (∀ config, parse nearest = .ok config → loadFrom files start = config) ∧
      ∀ fault, parse nearest = .error fault →
        (∀ config, further.findSome? accepted? = some config → loadFrom files start = config) ∧
        (loadFrom files start = {} ↔
          ∀ config, further.findSome? accepted? = some config → config = {}) := by
  refine ⟨upwards_searched start, ?_, ?_⟩
  · intro nowhere
    rw [loadFrom_eq, nowhere]
    rfl
  · intro nearest further texts
    rw [loadFrom_eq, texts, List.findSome?_cons]
    constructor
    · intro config describes
      rw [accepted?_eq_some_iff.mpr describes]
      rfl
    · intro fault rejects
      -- The search cannot tell a text that is rejected from one that is not there.
      rw [accepted?_eq_none_iff.mpr ⟨fault, rejects⟩]
      cases further.findSome? accepted? <;> simp

/-- A file that is rejected, below one that is not. -/
def rejectedBelow : FileTree :=
  (({} : FileTree).add ".refchase.toml" (.file "allow_circular_references = true\n")).add
    "a/b/.refchase.toml" (.file "allow_circular_references = [")

theorem textsFrom_rejectedBelow : textsFrom rejectedBelow "a/b" =
    ["allow_circular_references = [", "allow_circular_references = true\n"] := by
  decide +kernel

theorem exists_parse_eq_error : ∃ fault, parse "allow_circular_references = [" = .error fault :=
  accepted?_eq_none_iff.mp (Option.isNone_iff_eq_none.mp (by decide +kernel))

theorem loadFrom_nearest_passed :
    textsFrom rejectedBelow "a/b" =
        ["allow_circular_references = [", "allow_circular_references = true\n"] ∧
      (∃ fault, parse "allow_circular_references = [" = .error fault) ∧
      (loadFrom rejectedBelow "a/b").allowCircular = true := by
  have above : (["allow_circular_references = true\n"].findSome? accepted?).map
      (·.allowCircular) = some true := by decide +kernel
  obtain ⟨config, accepts, circular⟩ := Option.map_eq_some_iff.mp above
  obtain ⟨fault, rejects⟩ := exists_parse_eq_error
  have loaded :=
    (((loadFrom_nearest rejectedBelow "a/b").2.2 _ _ textsFrom_rejectedBelow).2 fault rejects).1
      config accepts
  exact ⟨textsFrom_rejectedBelow, ⟨fault, rejects⟩, loaded ▸ circular⟩

/-- A nearest text that is rejected does not mean the defaults: the search goes on above it. -/
theorem rejected_not_defaults : ¬ ∀ files start nearest further fault,
    textsFrom files start = nearest :: further → parse nearest = .error fault →
      loadFrom files start = {} := by
  intro defaults
  obtain ⟨fault, rejects⟩ := exists_parse_eq_error
  have loaded := defaults rejectedBelow "a/b" _ _ fault textsFrom_rejectedBelow rejects
  have circular : (loadFrom rejectedBelow "a/b").allowCircular = true := by decide +kernel
  rw [loaded] at circular
  cases circular

end Config

end DocRefs

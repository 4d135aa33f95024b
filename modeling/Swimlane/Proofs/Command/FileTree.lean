import Mathlib.Data.List.Lex
import Mathlib.Data.String.Basic
import Mathlib.Tactic.MkIffOfInductiveProp
import Swimlane.Command.FileTree
import Swimlane.Proofs.Lookup
import Swimlane.Proofs.Source.Layout

/-!
# Trees of files

In a tree every place has one entry and nothing lies below a file. A path with names behind it then
leads to the entry under these names below the path, so that the sources below a directory are
found under the paths they are listed with. Writing a file changes the content of that file only.

## Main definitions

* `FileTree.IsTree`: entries that form a tree;
* `FileTree.HasSourceEnding`: names of source files;
* `FileTree.IsSourceBelow`: the source files below a path;
* `FileTree.AreSources`: the sources that a path stands for, in order.

## Main statements

* `FileTree.place?_join`: the place of a path with names behind it;
* `FileTree.IsTree.discover?_areSources`: the sources that are found under a path;
* `FileTree.read?_write`: reading after writing.
-/

namespace Swimlane.FileTree

/-- A name that a directory can hold. -/
@[mk_iff]
structure IsName (name : String) : Prop where
  ne_empty : name ≠ ""
  ne_here : name ≠ "."
  ne_above : name ≠ ".."
  inner : '/' ∉ name.toList

instance : DecidablePred IsName := fun name => decidable_of_iff _ (isName_iff name).symm

/-- Entries form a tree: no place has two of them, their names lead downwards, and nothing lies
below a file. -/
structure IsTree (t : FileTree) : Prop where
  distinct : (t.entries.map (·.1)).Nodup
  names : ∀ e ∈ t.entries, ∀ name ∈ e.1, IsName name
  leaves : ∀ place content, (place, Entry.file content) ∈ t.entries →
    ¬ place <+: t.home ∧ ∀ e ∈ t.entries, place <+: e.1 → e.1 = place

variable {t : FileTree} {place names : List String} {root path : String} {content : ByteArray}

theorem isDirectory_iff : t.isDirectory place = true ↔ t.lookup? place = some .directory := by
  unfold isDirectory
  split <;> simp_all

theorem read?_eq_some_iff :
    t.read? path = some content ↔
      ∃ place, t.place? path = some place ∧ t.lookup? place = some (.file content) := by
  simp only [← Option.bind_eq_some_iff, read?]
  change _ ↔ t.entry? path = _
  split <;> simp_all

/-- A text is read as it was written. -/
theorem readText?_of_read? {text : String} (h : t.read? path = some text.toUTF8) :
    t.readText? path = some text := by
  rw [readText?, h, Option.bind_some]
  simp only [String.fromUTF8?, String.toUTF8_eq_toByteArray, dif_pos text.isValidUTF8]
  rfl

/-! ## Directories -/

/-- Names on the way to an entry or to the working directory. -/
def Leads (t : FileTree) (names : List String) : Prop :=
  names <+: t.home ∨ ∃ e ∈ t.entries, names <+: e.1

theorem leads_iff :
    (names.isPrefixOf t.home || t.entries.any fun e => names.isPrefixOf e.1) = true ↔
      t.Leads names := by
  rw [Bool.or_eq_true, List.any_eq_true, List.isPrefixOf_iff_prefix]
  simp only [List.isPrefixOf_iff_prefix, Leads]

theorem Leads.above (h : t.Leads place) (above : names <+: place) : t.Leads names :=
  h.imp above.trans fun ⟨e, mem, below⟩ => ⟨e, mem, above.trans below⟩

theorem isDirectory_of_leads (h : t.Leads place)
    (free : ∀ content, t.entries.lookup place ≠ some (.file content)) :
    t.isDirectory place = true := by
  rw [isDirectory_iff, lookup?, leads_iff.2 h]
  cases found : t.entries.lookup place with
  | none => rfl
  | some e =>
    cases e with
    | directory => rfl
    | file content => exact absurd found (free content)

theorem leads_of_isDirectory (h : t.isDirectory place = true) : t.Leads place := by
  rw [isDirectory_iff, lookup?] at h
  cases found : t.entries.lookup place with
  | some e => exact .inr ⟨_, mem_of_lookup found, List.prefix_rfl⟩
  | none =>
    rw [found, Option.none_or, Option.ite_none_right_eq_some] at h
    exact leads_iff.1 h.1

/-! ## Following names -/

theorem follow?_append (t : FileTree) (place names names' : List String) :
    t.follow? place (names ++ names') = (t.follow? place names).bind (t.follow? · names') := by
  induction names generalizing place with
  | nil => rfl
  | cons name names ih =>
    simp only [List.cons_append, follow?]
    split
    · exact ih (move place name)
    · rfl

theorem move_of_isName {name : String} (h : IsName name) : move place name = place ++ [name] := by
  simp [move, h.ne_empty, h.ne_here, h.ne_above]

/-- Names that can be followed lead straight down. -/
theorem eq_of_follow? (valid : ∀ name ∈ names, IsName name) {place' : List String}
    (h : t.follow? place names = some place') : place' = place ++ names := by
  induction names generalizing place with
  | nil => simpa [follow?] using h.symm
  | cons name names ih =>
    simp only [follow?, move_of_isName (valid name (by simp))] at h
    split at h
    · simpa using ih (fun n hn => valid n (by simp [hn])) h
    · exact absurd h (by simp)

namespace IsTree

variable (tree : t.IsTree)
include tree

theorem lookup?_eq_file_iff :
    t.lookup? place = some (.file content) ↔ (place, .file content) ∈ t.entries := by
  rw [← lookup_eq_some_iff_mem tree.distinct, lookup?]
  cases t.entries.lookup place <;> simp

/-- What an entry lies in is a directory. -/
theorem isDirectory_of_below {e : Entry} {name : String}
    (h : (place ++ name :: names, e) ∈ t.entries) : t.isDirectory place = true := by
  have above : place <+: place ++ name :: names := List.prefix_append _ _
  refine isDirectory_of_leads (.inr ⟨_, h, above⟩) fun content found => ?_
  have same := (tree.leaves place content (mem_of_lookup found)).2 _ h above
  exact absurd (congrArg List.length same) (by simp)

/-- The names of an entry can be followed. -/
theorem follow?_of_mem {e : Entry} (valid : ∀ name ∈ names, IsName name)
    (h : (place ++ names, e) ∈ t.entries) : t.follow? place names = some (place ++ names) := by
  induction names generalizing place with
  | nil => simp [follow?]
  | cons name names ih =>
    have below : ((place ++ [name]) ++ names, e) ∈ t.entries := by simpa using h
    have step := ih (fun n hn => valid n (by simp [hn])) below
    simpa [follow?, tree.isDirectory_of_below h, move_of_isName (valid name (by simp))] using step

end IsTree

/-! ## Paths with names behind them -/

theorem parts_append_slash (root inner : String) :
    parts (root ++ "/" ++ inner) = parts root ++ parts inner := by
  simp [parts, Text.splitOn_append_separator]

theorem parts_intercalate (valid : ∀ name ∈ names, '/' ∉ name.toList) (ne : names ≠ []) :
    parts (String.intercalate "/" names) = names := by
  have ne' : names.map String.toList ≠ [] := by simpa using ne
  have valid' : ∀ cs ∈ names.map String.toList, '/' ∉ cs := by simpa using valid
  have split := Text.splitOn_intercalate ne' valid'
  simp [parts, String.toList_intercalate, split]

/-- The names of a path, up to an empty one behind a last slash, stay in front of the names that
are put behind it. -/
theorem exists_stem (root : String) :
    ∃ stem, stem ≠ [] ∧ (parts root = stem ∨ parts root = stem ++ [""]) ∧
      ∀ names ≠ [], (∀ name ∈ names, '/' ∉ name.toList) →
        parts (join root names) = stem ++ names := by
  by_cases slash : root.toList.getLast? = some '/'
  · obtain ⟨cs, split⟩ := List.getLast?_eq_some_iff.1 slash
    have eq : root = String.ofList cs ++ "/" := String.toList_injective (by simp [split])
    refine ⟨parts (String.ofList cs), ?_, .inr ?_, fun names ne valid => ?_⟩
    · simp [parts, Text.splitOn_ne_nil]
    · have empty : parts "" = [""] := rfl
      rw [eq, ← empty, ← parts_append_slash, String.append_empty]
    · rw [join, if_pos slash, eq, parts_append_slash, parts_intercalate valid ne]
  · refine ⟨parts root, by simp [parts, Text.splitOn_ne_nil], .inl rfl, fun names ne valid => ?_⟩
    rw [join, if_neg slash, parts_append_slash, parts_intercalate valid ne]

theorem start_join (t : FileTree) (ne : root ≠ "") (names : List String) :
    t.start (join root names) = t.start root := by
  have ne : root.toList ≠ [] := by simpa using ne
  obtain ⟨c, cs, split⟩ := List.exists_cons_of_ne_nil ne
  have head : (join root names).toList.head? = some c := by
    unfold join
    split <;> simp [split]
  simp [start, isAbsolute, head, split]

/-- Names behind a path are followed from the place of the path. -/
theorem place?_join (h : t.place? root = some place) (ne : names ≠ [])
    (valid : ∀ name ∈ names, '/' ∉ name.toList) :
    t.place? (join root names) = t.follow? place names := by
  have nonempty : root ≠ "" := by
    rintro rfl
    simp [place?] at h
  have nonempty' : join root names ≠ "" := by
    unfold join
    split <;> simp [nonempty]
  rw [place?, if_neg nonempty] at h
  rw [place?, if_neg nonempty', start_join t nonempty]
  obtain ⟨stem, -, eq | eq, joined⟩ := exists_stem root
  · rw [joined names ne valid, follow?_append, ← eq, h, Option.bind_some]
  · rw [eq, follow?_append] at h
    obtain ⟨place', followed, stay⟩ := Option.bind_eq_some_iff.1 h
    -- The empty name behind the last slash does not move.
    have same : place' = place := by
      simp only [follow?, move] at stay
      split at stay <;> simp_all
    rw [joined names ne valid, follow?_append, followed, same, Option.bind_some]

/-! ## Names of sources -/

/-- The name of a source: something, a point, and the ending in letters of either case. -/
def HasSourceEnding (name : String) : Prop :=
  ∃ stem ending : String, stem ≠ "" ∧ name = stem ++ "." ++ ending ∧ ending.toLower = "bpl"

theorem extension?_eq_some {name ending : String} (h : extension? name = some ending) :
    ∃ stem : String, stem ≠ "" ∧ name = stem ++ "." ++ ending := by
  have split := List.takeWhile_append_dropWhile (p := (· != '.')) (l := name.toList.reverse)
  unfold extension? at h
  dsimp only at h
  split at h
  · cases h
  · cases h
  · next short long =>
    obtain rfl := Option.some.inj h
    match rest : name.toList.reverse.dropWhile (· != '.') with
    | [] => exact absurd rest short
    | [c] => exact absurd rest (long c)
    | c :: d :: cs =>
      have point : c = '.' := by
        have := List.head?_dropWhile_not (· != '.') name.toList.reverse
        simpa [rest] using this
      refine ⟨String.ofList (d :: cs).reverse, by simp, String.toList_injective ?_⟩
      rw [rest, point] at split
      have back := congrArg List.reverse split
      simpa using back.symm

theorem extension?_append {stem ending : String} (ne : stem ≠ "") (plain : '.' ∉ ending.toList) :
    extension? (stem ++ "." ++ ending) = some ending := by
  have ne : stem.toList.reverse ≠ [] := by simpa using ne
  obtain ⟨c, cs, split⟩ := List.exists_cons_of_ne_nil ne
  have before : ∀ c ∈ ending.toList.reverse, (c != '.') = true := by
    intro c hc
    have : c ≠ '.' := by
      rintro rfl
      exact plain (by simpa using hc)
    simpa using this
  simp [extension?, List.dropWhile_append_of_pos before, List.takeWhile_append_of_pos before, split]

theorem isSourceName_iff {name : String} : isSourceName name = true ↔ HasSourceEnding name := by
  constructor
  · intro h
    obtain ⟨ending, found, lower⟩ : ∃ ending, extension? name = some ending ∧
        ending.toLower = "bpl" := by
      simpa [isSourceName, Option.any_eq_true] using h
    obtain ⟨stem, ne, eq⟩ := extension?_eq_some found
    exact ⟨stem, ending, ne, eq, lower⟩
  · rintro ⟨stem, ending, ne, rfl, lower⟩
    have plain : '.' ∉ ending.toList := by
      intro point
      have chars : (ending.toLower).toList = ending.toList.map Char.toLower := String.toList_map
      have : '.'.toLower ∈ (ending.toLower).toList := chars ▸ List.mem_map_of_mem point
      rw [lower] at this
      exact absurd this (by simp)
    simp [isSourceName, extension?_append ne plain, lower]

/-! ## The sources below a directory -/

/-- What is listed for an entry: the rest of its names, if it is a source below the place. -/
theorem listed_iff {e : List String × Entry} :
    (match e.2 with
      | .file _ =>
        if place.isPrefixOf e.1 && (e.1.getLast?.any isSourceName) then
          some (e.1.drop place.length)
        else none
      | .directory => none) = some names ↔
    (∃ content, e = (place ++ names, .file content)) ∧
      (place ++ names).getLast?.any isSourceName = true := by
  obtain ⟨whole, entry⟩ := e
  cases entry with
  | directory => simp
  | file content =>
    simp only [Option.ite_none_right_eq_some, Bool.and_eq_true, List.isPrefixOf_iff_prefix,
      Option.some.injEq, Prod.mk.injEq]
    constructor
    · rintro ⟨⟨⟨rest, rfl⟩, source⟩, rfl⟩
      simpa using source
    · rintro ⟨⟨_, rfl, -⟩, source⟩
      exact ⟨⟨List.prefix_append _ _, source⟩, by simp⟩

theorem mem_sourcesBelow_iff :
    names ∈ t.sourcesBelow place ↔
      ∃ content, (place ++ names, .file content) ∈ t.entries ∧
        (place ++ names).getLast?.any isSourceName = true := by
  rw [sourcesBelow, (StableSort.perm_sort _ _).mem_iff, List.mem_filterMap]
  constructor
  · rintro ⟨e, mem, listed⟩
    obtain ⟨⟨content, rfl⟩, source⟩ := listed_iff.1 listed
    exact ⟨content, mem, source⟩
  · rintro ⟨content, mem, source⟩
    exact ⟨_, mem, listed_iff.2 ⟨⟨content, rfl⟩, source⟩⟩

/-- The sources below a place come in the order of their names, each once. -/
theorem IsTree.sourcesBelow_pairwise (tree : t.IsTree) (place : List String) :
    (t.sourcesBelow place).Pairwise (· < ·) := by
  have sorted : (t.sourcesBelow place).Pairwise fun a b => precedes a b = true := by
    apply StableSort.pairwise_sort
    · intro a b
      simpa [precedes] using le_total a b
    · intro a b c hab hbc
      simp only [precedes, Bool.not_eq_true', decide_eq_false_iff_not, not_lt] at hab hbc ⊢
      exact hab.trans hbc
  have distinct : (t.sourcesBelow place).Nodup := by
    rw [sourcesBelow, (StableSort.perm_sort _ _).nodup_iff]
    refine List.Pairwise.filterMap _ ?_ (List.pairwise_map.1 tree.distinct)
    rintro e e' apart names listed _ listed' rfl
    obtain ⟨⟨content, rfl⟩, -⟩ := listed_iff.1 listed
    obtain ⟨⟨content', rfl⟩, -⟩ := listed_iff.1 listed'
    exact apart rfl
  refine (sorted.and distinct).imp ?_
  intro a b ⟨hab, ne⟩
  have le : a ≤ b := by simpa [precedes] using hab
  exact lt_of_le_of_ne le ne

/-- The source files below a path. -/
def IsSourceBelow (t : FileTree) (root path : String) : Prop :=
  ∃ names last content, path = join root (names ++ [last]) ∧
    (∀ name ∈ names ++ [last], IsName name) ∧ HasSourceEnding last ∧ t.read? path = some content

/-- The sources that a path stands for: itself if it is a file, the source files below it if it is
a directory, each once and in the order of their names. -/
structure AreSources (t : FileTree) (root : String) (paths : List String) : Prop where
  alone : ∀ content, t.read? root = some content → paths = [root]
  below : t.entry? root = some .directory → ∀ path, path ∈ paths ↔ t.IsSourceBelow root path
  ordered : (paths.map parts).Pairwise (· < ·)

theorem parts_join_lt {names' : List String} (ne : names ≠ []) (ne' : names' ≠ [])
    (valid : ∀ name ∈ names, '/' ∉ name.toList) (valid' : ∀ name ∈ names', '/' ∉ name.toList)
    (h : names < names') : parts (join root names) < parts (join root names') := by
  obtain ⟨stem, -, -, joined⟩ := exists_stem root
  rw [joined names ne valid, joined names' ne' valid']
  exact List.append_left_lt h

/-- A file below a path is read under the path with its names behind it. -/
theorem IsTree.read?_join (tree : t.IsTree) (h : t.place? root = some place) (ne : names ≠ [])
    (valid : ∀ name ∈ names, IsName name) :
    t.read? (join root names) = some content ↔
      (place ++ names, .file content) ∈ t.entries := by
  rw [read?_eq_some_iff, place?_join h ne fun name hn => (valid name hn).inner]
  constructor
  · rintro ⟨place', followed, found⟩
    obtain rfl := eq_of_follow? valid followed
    exact tree.lookup?_eq_file_iff.1 found
  · intro listed
    exact ⟨_, tree.follow?_of_mem valid listed, tree.lookup?_eq_file_iff.2 listed⟩

/-- Below a directory there are only files under names. -/
theorem IsTree.names_of_mem_sourcesBelow (tree : t.IsTree)
    (directory : t.lookup? place = some .directory) (mem : names ∈ t.sourcesBelow place) :
    names ≠ [] ∧ ∀ name ∈ names, IsName name := by
  obtain ⟨content, listed, -⟩ := mem_sourcesBelow_iff.1 mem
  constructor
  · rintro rfl
    have file := tree.lookup?_eq_file_iff.2 listed
    simp [directory] at file
  · exact fun name hn => tree.names _ listed name (List.mem_append_right _ hn)

/-- What is found below a directory. -/
theorem IsTree.mem_map_join_iff (tree : t.IsTree) (h : t.place? root = some place)
    (directory : t.lookup? place = some .directory) :
    path ∈ (t.sourcesBelow place).map (join root) ↔ t.IsSourceBelow root path := by
  rw [List.mem_map]
  constructor
  · rintro ⟨names, mem, rfl⟩
    obtain ⟨ne, valid⟩ := tree.names_of_mem_sourcesBelow directory mem
    obtain ⟨content, listed, source⟩ := mem_sourcesBelow_iff.1 mem
    obtain ⟨init, last, rfl⟩ := (List.eq_nil_or_concat' names).resolve_left ne
    refine ⟨init, last, content, rfl, valid, isSourceName_iff.1 ?_,
      (tree.read?_join h ne valid).2 listed⟩
    simpa [← List.append_assoc] using source
  · rintro ⟨init, last, content, rfl, valid, source, read⟩
    have listed := (tree.read?_join h (by simp) valid).1 read
    refine ⟨_, mem_sourcesBelow_iff.2 ⟨content, listed, ?_⟩, rfl⟩
    simp [← List.append_assoc, isSourceName_iff.2 source]

/-- An existing path stands for its sources. -/
theorem IsTree.discover?_areSources (tree : t.IsTree) {entry : Entry}
    (h : t.entry? root = some entry) :
    ∃ paths, t.discover? root = some paths ∧ t.AreSources root paths := by
  obtain ⟨place, placed, found⟩ := Option.bind_eq_some_iff.1 h
  cases entry with
  | file content =>
    refine ⟨[root], by simp [discover?, placed, found], fun _ _ => rfl, ?_, by simp⟩
    intro directory
    rw [h] at directory
    cases directory
  | directory =>
    refine ⟨(t.sourcesBelow place).map (join root), by simp [discover?, placed, found], ?_, ?_, ?_⟩
    · intro content read
      simp [read?, h] at read
    · exact fun _ path => tree.mem_map_join_iff placed found
    · rw [List.map_map, List.pairwise_map]
      refine (tree.sourcesBelow_pairwise place).imp_of_mem ?_
      intro names names' mem mem' lt
      obtain ⟨ne, valid⟩ := tree.names_of_mem_sourcesBelow found mem
      obtain ⟨ne', valid'⟩ := tree.names_of_mem_sourcesBelow found mem'
      exact parts_join_lt ne ne' (fun name hn => (valid name hn).inner)
        (fun name hn => (valid' name hn).inner) lt

/-- Names behind a path never make it the standard input. -/
theorem isStandardInput_join (ne : names ≠ []) (valid : ∀ name ∈ names, IsName name) :
    isStandardInput (join root names) = false := by
  obtain ⟨stem, stemNe, -, joined⟩ := exists_stem root
  obtain ⟨first, stem, rfl⟩ := List.exists_cons_of_ne_nil stemNe
  obtain ⟨name, names, rfl⟩ := List.exists_cons_of_ne_nil ne
  have valid' := valid name (by simp)
  simp [isStandardInput, joined _ ne fun n hn => (valid n hn).inner, valid'.ne_empty,
    valid'.ne_here]

theorem IsSourceBelow.isStandardInput_eq_false (h : t.IsSourceBelow root path) :
    isStandardInput path = false := by
  obtain ⟨init, last, content, rfl, valid, -, -⟩ := h
  exact isStandardInput_join (by simp) valid

/-- The sources of an existing path are files, not the standard input. -/
theorem AreSources.isStandardInput_eq_false {entry : Entry} {paths : List String}
    (h : t.AreSources root paths) (found : t.entry? root = some entry)
    (other : isStandardInput root = false) (mem : path ∈ paths) : isStandardInput path = false := by
  cases entry with
  | file content =>
    obtain rfl := h.alone content (by simp [read?, found])
    obtain rfl := List.mem_singleton.1 mem
    exact other
  | directory => exact ((h.below found path).1 mem).isStandardInput_eq_false

/-- An existing path has its sources in one order only. -/
theorem AreSources.unique {entry : Entry} {paths paths' : List String}
    (found : t.entry? root = some entry) (h : t.AreSources root paths)
    (h' : t.AreSources root paths') : paths = paths' := by
  cases entry with
  | file content =>
    have read : t.read? root = some content := by simp [read?, found]
    rw [h.alone content read, h'.alone content read]
  | directory =>
    have ordered := List.pairwise_map.1 h.ordered
    have ordered' := List.pairwise_map.1 h'.ordered
    have same : paths.Perm paths' := by
      rw [List.perm_ext_iff_of_nodup (ordered.imp fun lt eq => lt.ne (congrArg parts eq))
        (ordered'.imp fun lt eq => lt.ne (congrArg parts eq))]
      intro path
      rw [h.below found, h'.below found]
    exact same.eq_of_pairwise (fun _ _ _ _ lt gt => absurd gt lt.asymm) ordered ordered'

/-! ## Writing -/

variable {t' : FileTree}

/-- A file is written at the place of its path, into a directory and not over one. -/
theorem write?_eq_some (h : t.write? path content = some t') :
    ∃ directory name, t.place? path = some (move directory name) ∧
      t.isDirectory directory = true ∧ t.isDirectory (move directory name) = false ∧
      t' = { t with entries := (move directory name, .file content) ::
              t.entries.filter (·.1 != move directory name) } := by
  simp only [write?] at h
  split at h
  · cases h
  next name last =>
    split at h
    · cases h
    next directory followed =>
      split at h
      · cases h
      next free =>
        obtain ⟨into, free⟩ : t.isDirectory directory = true ∧
          t.isDirectory (move directory name) = false := by simpa using free
        refine ⟨directory, name, ?_, into, free, (Option.some.inj h).symm⟩
        have nonempty : path ≠ "" := by
          -- The empty path would write over the working directory.
          rintro rfl
          obtain rfl : "" = name := Option.some.inj last
          simp [move, into] at free
        rw [place?, if_neg nonempty, ← List.dropLast_append_getLast? name last, follow?_append,
          followed]
        simp [follow?, into]

theorem lookup?_congr (found : t'.entries.lookup names = t.entries.lookup names)
    (leads : t'.Leads names ↔ t.Leads names) : t'.lookup? names = t.lookup? names := by
  rw [← leads_iff, ← leads_iff, ← Bool.eq_iff_iff] at leads
  rw [lookup?, lookup?, found, leads]

theorem prefix_of_prefix_move {directory : List String} {name : String}
    (above : names <+: move directory name) (ne : names ≠ move directory name) :
    names <+: directory := by
  unfold move at above ne
  split at above
  · exact above
  · split at above
    · exact above.trans (List.dropLast_prefix directory)
    · simp_all [List.prefix_concat_iff]

/-- Writing changes what stands at the place of the file, and nothing else. -/
theorem lookup?_write (h : t.write? path content = some t') (place : List String) :
    t'.lookup? place = if t.place? path = some place then some (.file content)
      else t.lookup? place := by
  obtain ⟨directory, name, placed, into, -, rfl⟩ := write?_eq_some h
  by_cases same : move directory name = place
  · simp [lookup?, placed, same]
  · rw [if_neg (by simpa [placed] using same)]
    apply lookup?_congr
    · rw [lookup_put, if_neg (Ne.symm same)]
    · constructor
      · rintro (home | ⟨e, mem, below⟩)
        · exact .inl home
        · obtain rfl | mem := List.mem_cons.1 mem
          · exact (leads_of_isDirectory into).above (prefix_of_prefix_move below (Ne.symm same))
          · exact .inr ⟨e, List.mem_of_mem_filter mem, below⟩
      · rintro (home | ⟨e, mem, below⟩)
        · exact .inl home
        · by_cases hit : e.1 = move directory name
          · exact .inr ⟨_, List.mem_cons_self, hit ▸ below⟩
          · exact .inr ⟨e, List.mem_cons_of_mem _ (List.mem_filter.2 ⟨mem, by simpa using hit⟩),
              below⟩

/-- Writing changes no directory, so paths lead where they led before. -/
theorem place?_write (h : t.write? path content = some t') (path' : String) :
    t'.place? path' = t.place? path' := by
  have directories : t'.isDirectory = t.isDirectory := by
    funext place
    obtain ⟨directory, name, placed, -, free, -⟩ := write?_eq_some h
    have found := lookup?_write h place
    split at found
    · next same =>
      obtain rfl := Option.some.inj (placed.symm.trans same)
      rw [free, isDirectory, found]
    · rw [isDirectory, isDirectory, found]
  have follow (place names : List String) : t'.follow? place names = t.follow? place names := by
    induction names generalizing place with
    | nil => rfl
    | cons name names ih => simp only [follow?, directories, ih]
  have home : t'.home = t.home := by
    obtain ⟨_, _, _, _, _, rfl⟩ := write?_eq_some h
    rfl
  simp only [place?, start, home, follow]

/-- After a file has been written, it is read under all paths that lead to it, and other files are
read as before. -/
theorem read?_write (h : t.write? path content = some t') (path' : String) :
    t'.read? path' = if t.place? path' = t.place? path then some content else t.read? path' := by
  obtain ⟨directory, name, placed, -⟩ := write?_eq_some h
  rw [read?, entry?, place?_write h, read?, entry?, placed]
  cases t.place? path' with
  | none => rfl
  | some place =>
    simp only [Option.bind_some, lookup?_write h, placed, Option.some.injEq, eq_comm]
    split <;> rfl

end Swimlane.FileTree

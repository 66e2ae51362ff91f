import MaterialShader.FileLookup
import MaterialShader.FileStore

/-!
# Spellings of a path that lead to a file

Two spellings of one path can lead to different places, since one of them may ask for a directory
or be too long.  But where both can lead to a file at all, in whatever store, they lead to the same
place in every store.  Empty segments and points only ask for a directory, and the name
that follows asks for it anyway.  So a store is one of the ways to look up files.

## Main definitions

* `Path.names` — the segments that enter something.
* `FileStore.lookup` — looking up the files of a store.

## Main results

* `FileStore.file?_eq_of_sameAs` — spellings of one path that can lead to a file lead to the same.
-/

namespace MaterialShader
namespace Path

theorem segment_of_not_isName {segment : String} (h : ¬isName segment = true) :
    segment = "" ∨ segment = "." := by
  rw [isName, decide_eq_true_eq, Decidable.not_and_iff_not_or_not, Decidable.not_not,
    Decidable.not_not] at h
  exact h

/-- The segments of a path that enter something. -/
def names (p : Path) : List String := p.segments.filter isName

variable {p q : Path}

theorem ne_slash_of_mem_names {name : String} (h : name ∈ p.names) : name ≠ "/" := by
  rintro rfl
  obtain ⟨part, hpart, htext⟩ := List.mem_map.mp (List.mem_filter.mp h).1
  refine notMem_of_mem_splitAt hpart ?_
  rw [← String.toList_ofList (l := part), htext]
  decide

/-! ### Names and components -/

theorem isAbsolute_eq (p : Path) : p.isAbsolute = (p.components.head? == some "/") := by
  unfold components
  cases habsolute : p.isAbsolute with
  | true => simp
  | false =>
    rw [if_neg Bool.false_ne_true]
    split
    · simp
    · rw [List.nil_append, Eq.comm, beq_eq_false_iff_ne]
      exact fun hhead => ne_slash_of_mem_names (List.mem_of_head? hhead) rfl

theorem names_eq (p : Path) : p.names = p.components.filter fun s => s ≠ "/" ∧ s ≠ "." := by
  have hnames : (p.names.filter fun s => s ≠ "/" ∧ s ≠ ".") = p.names := by
    refine List.filter_eq_self.mpr fun name hname => ?_
    have hpoint := (of_decide_eq_true (List.mem_filter.mp hname).2).2
    exact decide_eq_true ⟨ne_slash_of_mem_names hname, hpoint⟩
  have hcomponents : p.components =
      (if p.isAbsolute then ["/"] else if p.segments.head? = some "." then ["."] else []) ++
        p.names := rfl
  rw [hcomponents, List.filter_append, hnames]
  split
  · rfl
  · split <;> rfl

end Path

/-! ### Following a path -/

namespace FileStore

open MaterialShader.Path (isName segment_of_not_isName EndsInName)

variable {store : FileStore} {p q : Path} {text : String}

/-- Segments that enter nothing make no difference in front of a name. -/
theorem foldlM_enter?_filter (store : FileStore) (place : Place) (front : List String)
    {name : String} (hname : isName name = true) :
    (front ++ [name]).foldlM store.enter? place =
      ((front ++ [name]).filter isName).foldlM store.enter? place := by
  induction front generalizing place with
  | nil => rw [List.nil_append, List.filter_cons_of_pos hname, List.filter_nil]
  | cons segment front ih =>
    by_cases hsegment : isName segment = true
    · rw [List.cons_append, List.filter_cons_of_pos hsegment, List.foldlM_cons, List.foldlM_cons]
      exact congrArg _ (funext fun place => ih place)
    · rw [List.cons_append, List.filter_cons_of_neg hsegment, List.foldlM_cons, ← ih]
      cases hdirectory : store.isDirectoryAt place with
      | true =>
        have henter : store.enter? place segment = some place := by
          rcases segment_of_not_isName hsegment with rfl | rfl
          · simp [enter?, hdirectory, Place.enter, maxNameSize]
          · simp [enter?, hdirectory, Place.enter, maxNameSize]
            decide
        rw [henter]
        rfl
      | false =>
        -- the next segment asks for a directory as well
        obtain ⟨next, rest, hnext⟩ := List.exists_cons_of_ne_nil
          (List.append_ne_nil_of_right_ne_nil front (List.cons_ne_nil name []))
        have hnone : ∀ s, store.enter? place s = none := fun s => by simp [enter?, hdirectory]
        rw [hnext, List.foldlM_cons, hnone, hnone]
        rfl

theorem locate?_of_endsInName (h : EndsInName p) :
    store.locate? p = p.names.foldlM store.enter? (store.startOf p) := by
  obtain ⟨hadmits, front, name, hsegments, hname⟩ := h
  rw [locate?, if_pos hadmits, Path.names, hsegments]
  exact foldlM_enter?_filter store _ front hname

/-- A path that leads to a file in some store can lead to a file. -/
theorem endsInName_of_isFile (h : store.isFile p = true) : EndsInName p := by
  obtain ⟨entry, hfile⟩ := Option.isSome_iff_exists.mp h
  obtain ⟨place, hplace, hentry⟩ := Option.bind_eq_some_iff.mp hfile
  unfold locate? at hplace
  split at hplace
  · next hadmits =>
    have hsegments : p.segments ≠ [] := mt List.map_eq_nil_iff.mp (Path.splitAt_ne_nil _ _)
    refine ⟨hadmits, _, _, (List.dropLast_concat_getLast hsegments).symm, ?_⟩
    refine Decidable.byContradiction fun hlast => ?_
    -- such a last segment stays where it is, in a directory
    rw [← List.dropLast_concat_getLast hsegments, List.foldlM_append] at hplace
    obtain ⟨directory, -, hstep⟩ := Option.bind_eq_some_iff.mp hplace
    obtain ⟨place', henter, hplace'⟩ := Option.bind_eq_some_iff.mp hstep
    obtain rfl := Option.some.inj hplace'
    unfold enter? at henter
    split at henter
    · exact absurd henter (by rintro ⟨⟩)
    · next hdirectory =>
      have hstays : directory.enter (p.segments.getLast hsegments) = directory := by
        rw [Place.enter, if_pos (segment_of_not_isName hlast)]
      rw [hstays] at henter
      obtain rfl := Option.some.inj henter
      rw [Bool.or_eq_true, not_or, Bool.not_eq_true', Bool.not_eq_false] at hdirectory
      rw [if_pos hdirectory.1] at hentry
      exact absurd hentry (by rintro ⟨⟩)
  · exact absurd hplace (by rintro ⟨⟩)

/-- **Spellings of one path that can lead to a file lead to the same.** -/
theorem file?_eq_of_sameAs (store : FileStore) (hp : EndsInName p) (hq : EndsInName q)
    (h : p.sameAs q = true) : store.file? p = store.file? q := by
  have hcomponents := (Path.sameAs_iff p q).mp h
  have hstart : store.startOf p = store.startOf q := by
    rw [startOf, startOf, Path.isAbsolute_eq, hcomponents, ← Path.isAbsolute_eq]
  rw [file?, file?, locate?_of_endsInName hp, locate?_of_endsInName hq, Path.names_eq p,
    hcomponents, ← Path.names_eq, hstart]

/-! ### Looking up the files of a store -/

theorem isFile_of_readText? (h : store.readText? p = some text) : store.isFile p = true := by
  obtain ⟨entry, hfile, -⟩ := Option.bind_eq_some_iff.mp h
  rw [isFile, hfile]
  rfl

/-- A text that is read is that of an entry. -/
theorem mem_texts_of_readText? (h : store.readText? p = some text) : text ∈ store.texts := by
  obtain ⟨entry, hfile, htext⟩ := Option.bind_eq_some_iff.mp h
  obtain ⟨place, -, hplace⟩ := Option.bind_eq_some_iff.mp hfile
  split at hplace
  · exact absurd hplace (by rintro ⟨⟩)
  · obtain ⟨before, after, hentries, -⟩ := List.lookup_eq_some_iff.mp hplace
    have hmem : (place, entry) ∈ store.entries := by
      rw [hentries]
      exact List.mem_append_right before List.mem_cons_self
    exact List.mem_filterMap.mpr ⟨_, hmem, htext⟩

/-- Looking up the files of a store. -/
def lookup (store : FileStore) : FileLookup where
  isFile := store.isFile
  readText? := store.readText?
  texts := store.texts
  isFile_of_readText? := isFile_of_readText?
  mem_texts := mem_texts_of_readText?
  endsInName_of_isFile := endsInName_of_isFile
  readText?_eq_of_sameAs hp hq h := by
    rw [readText?, readText?, file?_eq_of_sameAs store hp hq h]

instance : Coe FileStore FileLookup := ⟨lookup⟩

end FileStore
end MaterialShader

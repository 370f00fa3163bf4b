import ApiDescription.Combine.Combiner
import ApiDescription.Proofs.Fold
import ApiDescription.Proofs.Json.Distinct

/-!
# Looking things up in a document

`Source.lookup?` goes down one name after the other, so it follows the list of names. Parts of a distinct
document are distinct, and loading leaves the documents of all sources so (`Combiner.distinct_loadFiles`,
`Combiner.distinct_loadServices`).
-/

set_option autoImplicit false

namespace ApiDescription

namespace Source

@[simp] theorem lookup?_nil (j : Json) : lookup? j [] = some j := rfl

theorem lookup?_cons (j : Json) (name : String) (names : List String) :
    lookup? j (name :: names) = (j.get? name).bind (lookup? · names) := by
  have hnone : ∀ names : List String,
      names.foldl (fun j name => j.bind (·.get? name)) (none : Option Json) = none := by
    intro names
    induction names with
    | nil => rfl
    | cons _ _ ih => exact ih
  unfold lookup?
  rw [List.foldl_cons, Option.bind_some]
  cases j.get? name with
  | none => exact hnone names
  | some v => rfl

theorem lookup?_append (j : Json) (names rest : List String) :
    lookup? j (names ++ rest) = (lookup? j names).bind (lookup? · rest) := by
  induction names generalizing j with
  | nil => rfl
  | cons name names ih =>
    rw [List.cons_append, lookup?_cons, lookup?_cons, Option.bind_assoc]
    cases j.get? name with
    | none => rfl
    | some v => exact ih v

theorem lookup?_concat (j : Json) (names : List String) (name : String) :
    lookup? j (names ++ [name]) = Entries.get? (membersAt j names) name := by
  rw [lookup?_append]
  unfold membersAt
  cases lookup? j names with
  | none => rfl
  | some v =>
    rw [Option.bind_some, Option.bind_some, lookup?_cons]
    cases v with
    | object ms =>
      show (Entries.get? ms name).bind _ = Entries.get? ms name
      cases Entries.get? ms name <;> rfl
    | _ => rfl

theorem membersAt_concat (j : Json) (names : List String) (name : String) :
    membersAt j (names ++ [name]) =
      ((Entries.get? (membersAt j names) name).bind Json.members?).getD [] := by
  rw [← lookup?_concat]
  rfl

theorem lookup?_table {j : Json} (names : List String)
    {table : List (String × List (String × Json))}
    (h : membersAt j names = table.map fun e => (e.1, .object e.2)) (outer inner : String) :
    lookup? j (names ++ [outer, inner]) = Entries.at? table outer inner := by
  have hget : Entries.get? (table.map fun e => (e.1, Json.object e.2)) outer =
      (Entries.get? table outer).map .object :=
    Entries.get?_map (fun _ entries => Json.object entries) table outer
  have hnames : names ++ [outer, inner] = (names ++ [outer]) ++ [inner] := by simp
  rw [hnames, lookup?_concat, membersAt_concat, h, hget]
  unfold Entries.at?
  cases Entries.get? table outer <;> rfl

/-- Where there are members under a name, the name is itself one. -/
theorem exists_mem_of_mem_membersAt {j : Json} (names : List String) {name : String}
    {m : String × Json} (hm : m ∈ membersAt j (names ++ [name])) :
    ∃ v, (name, v) ∈ membersAt j names := by
  rw [membersAt_concat] at hm
  cases hv : Entries.get? (membersAt j names) name with
  | none =>
    rw [hv] at hm
    cases hm
  | some v => exact ⟨v, Entries.mem_of_get?_eq_some hv⟩

/-! ## Distinct names -/

theorem distinct_of_lookup? {j v : Json} {names : List String} (hd : j.distinct = true)
    (h : lookup? j names = some v) : v.distinct = true := by
  induction names generalizing j with
  | nil =>
    cases h
    exact hd
  | cons name names ih =>
    rw [lookup?_cons] at h
    obtain ⟨w, hw, hv⟩ := Option.bind_eq_some_iff.1 h
    exact ih (Json.distinct_of_get? hd hw) hv

theorem distinct_object_membersAt {j : Json} (hd : j.distinct = true) (names : List String) :
    (Json.object (membersAt j names)).distinct = true := by
  unfold membersAt
  cases h : lookup? j names with
  | none => rfl
  | some v =>
    have hv : v.distinct = true := distinct_of_lookup? hd h
    cases v with
    | object ms => exact hv
    | _ => rfl

theorem nodup_keys_membersAt {j : Json} (hd : j.distinct = true) (names : List String) :
    (Entries.keys (membersAt j names)).Nodup :=
  ((Json.distinct_object_iff _).1 (distinct_object_membersAt hd names)).1

theorem lookup?_concat_of_mem {j : Json} (hd : j.distinct = true) (names : List String)
    {m : String × Json} (hm : m ∈ membersAt j names) : lookup? j (names ++ [m.1]) = some m.2 := by
  rw [lookup?_concat]
  exact Entries.get?_eq_some_of_mem (nodup_keys_membersAt hd names) hm

theorem distinct_of_mem_itemsAt {j item : Json} {name : String} (hd : j.distinct = true)
    (h : item ∈ itemsAt j name) : item.distinct = true := by
  unfold itemsAt at h
  cases hget : j.get? name with
  | none =>
    rw [hget] at h
    cases h
  | some v =>
    rw [hget, Option.bind_some] at h
    have hv : v.distinct = true := Json.distinct_of_get? hd hget
    cases v with
    | array xs => exact (Json.distinct_array_iff xs).1 hv item h
    | _ => cases h

/-! ## Sources that were loaded -/

theorem distinct_ofText? {text : String} {j : Json} (h : Json.ofText? text = some j) :
    j.distinct = true := by
  obtain ⟨k, _, rfl⟩ := Option.map_eq_some_iff.1 h
  exact Json.distinct_withoutRepeats k

theorem distinct_toJson? {data : Data} {j : Json} (h : data.toJson? = some j) :
    j.distinct = true := by
  obtain ⟨k, _, rfl⟩ := Option.map_eq_some_iff.1 h
  exact Json.distinct_withoutRepeats k

theorem distinct_parse {path text : String} {j : Json} (h : parse path text = .ok j) :
    j.distinct = true := by
  have hyaml : ∀ {j}, (Yaml.ofText? text).bind Data.toJson? = some j → j.distinct = true := by
    intro j hj
    obtain ⟨data, _, hdata⟩ := Option.bind_eq_some_iff.1 hj
    exact distinct_toJson? hdata
  unfold parse at h
  simp only at h
  split at h
  · split at h
    · next hj =>
      cases h
      exact hyaml hj
    · cases h
  · split at h
    · next hj =>
      cases h
      exact distinct_ofText? hj
    · cases h
  · split at h
    · next hj =>
      cases h
      rcases Option.or_eq_some_iff.1 hj with hj | ⟨_, hj⟩
      · exact hyaml hj
      · exact distinct_ofText? hj
    · cases h

theorem distinct_loadDocument {files : FileTree} {path : String} {j : Json}
    (h : loadDocument files path = .ok j) : j.distinct = true := by
  unfold loadDocument at h
  by_cases hm : (files.find? path).isNone = true
  · rw [if_pos hm] at h
    cases h
  · rw [if_neg hm] at h
    cases ht : files.readText? path with
    | none =>
      rw [ht] at h
      cases h
    | some text =>
      rw [ht] at h
      obtain ⟨document, hp, hdoc⟩ := bind_ok_iff.1 h
      split at hdoc
      · cases hdoc
        exact distinct_parse hp
      · cases hdoc

theorem distinct_ofFile {files : FileTree} {path : String} {source : Source}
    (h : ofFile files path = .ok source) : source.document.distinct = true := by
  obtain ⟨document, hd, hs⟩ := bind_ok_iff.1 h
  cases hs
  exact distinct_loadDocument hd

theorem distinct_ofService {files : FileTree} {config : ServiceConfig} {source : Source}
    (h : ofService files config = .ok source) : source.document.distinct = true := by
  obtain ⟨document, hd, hs⟩ := bind_ok_iff.1 h
  cases hs
  exact distinct_loadDocument hd

end Source

namespace Combiner

theorem distinct_loadFiles {c : Combiner} (h : ∀ source ∈ c.sources, source.document.distinct = true)
    (files : FileTree) (paths : List String) :
    ∀ source ∈ (c.loadFiles files paths).1.sources, source.document.distinct = true := by
  intro source hs
  rcases List.mem_append.1 hs with hs | hs
  · exact h source hs
  · obtain ⟨path, -, hpath⟩ := exists_of_mem_collect hs
    exact Source.distinct_ofFile hpath

theorem distinct_loadServices {c : Combiner}
    (h : ∀ source ∈ c.sources, source.document.distinct = true) (files : FileTree)
    (services : ServicesConfig) :
    ∀ source ∈ (c.loadServices files services).1.sources, source.document.distinct = true := by
  intro source hs
  rcases List.mem_append.1 hs with hs | hs
  · exact h source hs
  · obtain ⟨config, -, hconfig⟩ := exists_of_mem_collect hs
    exact Source.distinct_ofService hconfig

end Combiner

end ApiDescription

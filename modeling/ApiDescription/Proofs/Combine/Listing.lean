import ApiDescription.Proofs.Combine.Agreement
import ApiDescription.Proofs.Combine.Order
import ApiDescription.Proofs.Combine.Overriding
import ApiDescription.Proofs.Combine.Torn

/-!
# The order in which a source lists its schemas

Objects have no order, and still a source whose schemas are listed in another one can be combined to another
document, because of a schema that is torn. `combine_relisted` says that there is no other reason to rename
other schemas, that none is torn among services that are set apart, and that the same renames give the same
document as long as no schema takes the name of another one of its source.
-/

set_option autoImplicit false

namespace ApiDescription

open Renames (referenceName referenceStart)

/-! ## Values that differ under one name -/

namespace Json

/-- Two objects that are the same but for the values of one of their members. -/
inductive SameButAt (name : String) (R : Json → Json → Prop) : Json → Json → Prop
  | mk (before after : List (String × Json)) {v w : Json} (h : R v w) :
    SameButAt name R (.object (before ++ (name, v) :: after)) (.object (before ++ (name, w) :: after))

/-- Two objects with the same members in any orders. -/
inductive Reordered : Json → Json → Prop
  | mk {ms ns : List (String × Json)} (h : ms.Perm ns) : Reordered (.object ms) (.object ns)

section SameButAt

variable {name : String} {R : Json → Json → Prop} {j k : Json}

theorem keys_replace (before after : List (String × Json)) (v w : Json) :
    Entries.keys (before ++ (name, v) :: after) = Entries.keys (before ++ (name, w) :: after) := by
  simp [Entries.keys]

theorem SameButAt.distinct (h : SameButAt name R j k) (hd : j.distinct = true)
    (hR : ∀ v w, R v w → v.distinct = true → w.distinct = true) : k.distinct = true := by
  obtain ⟨before, after, h⟩ := h
  obtain ⟨hkeys, hvalues⟩ := (distinct_object_iff _).1 hd
  refine (distinct_object_iff _).2 ⟨keys_replace before after _ _ ▸ hkeys, fun m hm => ?_⟩
  obtain hm | hm := List.mem_append.1 hm
  · exact hvalues m (List.mem_append_left _ hm)
  obtain rfl | hm := List.mem_cons.1 hm
  · exact hR _ _ h (hvalues (name, _) (List.mem_append_right _ List.mem_cons_self))
  · exact hvalues m (List.mem_append_right _ (List.mem_cons_of_mem _ hm))

theorem SameButAt.get?_ne (h : SameButAt name R j k) {other : String} (hne : other ≠ name) :
    j.get? other = k.get? other := by
  obtain ⟨before, after, h⟩ := h
  show Entries.get? _ other = Entries.get? _ other
  induction before with
  | nil => simp [Entries.get?, Ne.symm hne]
  | cons m before ih =>
    rw [List.cons_append, List.cons_append, Entries.get?, Entries.get?, ih]

theorem SameButAt.exists_get? (h : SameButAt name R j k) (hd : j.distinct = true)
    (hd' : k.distinct = true) : ∃ v w, R v w ∧ j.get? name = some v ∧ k.get? name = some w := by
  obtain ⟨before, after, h⟩ := h
  have hmem (v : Json) : (name, v) ∈ before ++ (name, v) :: after :=
    List.mem_append_right _ List.mem_cons_self
  exact ⟨_, _, h, Entries.get?_eq_some_of_mem ((distinct_object_iff _).1 hd).1 (hmem _),
    Entries.get?_eq_some_of_mem ((distinct_object_iff _).1 hd').1 (hmem _)⟩

theorem SameButAt.redirect (h : SameButAt name R j k) (r : Renames) (hname : name ≠ referenceName)
    (hR : ∀ v w, R v w → R (r.redirect v) (r.redirect w)) :
    SameButAt name R (r.redirect j) (r.redirect k) := by
  obtain ⟨before, after, h⟩ := h
  rw [Renames.redirect_object, Renames.redirect_object, List.map_append, List.map_append, List.map_cons,
    List.map_cons, r.redirectMember_ne hname, r.redirectMember_ne hname]
  exact .mk _ _ (hR _ _ h)

end SameButAt

theorem Reordered.distinct {j k : Json} (h : Reordered j k) (hd : j.distinct = true) :
    k.distinct = true := by
  obtain ⟨hp⟩ := h
  obtain ⟨hkeys, hvalues⟩ := (distinct_object_iff _).1 hd
  exact (distinct_object_iff _).2 ⟨(hp.map Prod.fst).nodup_iff.1 hkeys,
    fun m hm => hvalues m (hp.mem_iff.2 hm)⟩

theorem Reordered.redirect {j k : Json} (h : Reordered j k) (r : Renames) :
    Reordered (r.redirect j) (r.redirect k) := by
  obtain ⟨hp⟩ := h
  rw [Renames.redirect_object, Renames.redirect_object]
  exact .mk (hp.map _)

end Json

namespace MergeState

variable {config : CombineConfig} {s s' t t' : MergeState} {r r' : Renames} {document document' : Json}

/-! ## Documents that list their schemas in two orders -/

/-- The documents are the same but for the order of their schemas. -/
def Relists (document document' : Json) : Prop :=
  Json.SameButAt "components" (Json.SameButAt schemaKind Json.Reordered) document document'

theorem Relists.distinct (h : Relists document document') (hd : document.distinct = true) :
    document'.distinct = true :=
  Json.SameButAt.distinct h hd fun _ _ hcomponents hv =>
    hcomponents.distinct hv fun _ _ hschemas => hschemas.distinct

theorem Relists.redirect (h : Relists document document') (r : Renames) :
    Relists (r.redirect document) (r.redirect document') :=
  Json.SameButAt.redirect h r (by decide) fun _ _ hcomponents =>
    hcomponents.redirect r (by decide) fun _ _ hschemas => hschemas.redirect r

theorem Relists.get?_eq (h : Relists document document') {name : String} (hname : name ≠ "components") :
    document.get? name = document'.get? name := Json.SameButAt.get?_ne h hname

theorem Relists.componentsOf_perm (h : Relists document document') (hd : document.distinct = true) :
    (componentsOf document).Perm (componentsOf document') := by
  obtain ⟨v, w, ⟨kinds, kinds', ⟨hp⟩⟩, hv, hw⟩ := Json.SameButAt.exists_get? h hd (h.distinct hd)
  have hmembers {j : Json} {ms : List (String × Json)} (hj : j.get? "components" = some (.object ms)) :
      Source.membersAt j ["components"] = ms := by
    rw [Source.membersAt, Source.lookup?_cons, hj]
    rfl
  unfold componentsOf
  rw [hmembers hv, hmembers hw, List.flatMap_append, List.flatMap_append, List.flatMap_cons,
    List.flatMap_cons]
  exact List.Perm.append_left _ (List.Perm.append_right _ (hp.map _))

theorem Relists.schemasOf_perm (h : Relists document document') (hd : document.distinct = true) :
    (schemasOf document).Perm (schemasOf document') := by
  obtain ⟨v, w, hcomponents, hv, hw⟩ := Json.SameButAt.exists_get? h hd (h.distinct hd)
  have hdistinct := Json.distinct_of_get? hd hv
  obtain ⟨_, _, ⟨hp⟩, hms, hns⟩ := hcomponents.exists_get? hdistinct
    (Json.distinct_of_get? (h.distinct hd) hw)
  have hschemas {j u : Json} {ms : List (String × Json)} (hj : j.get? "components" = some u)
      (hu : u.get? schemaKind = some (.object ms)) : schemasOf j = ms := by
    rw [schemasOf, Source.membersAt, Source.lookup?_cons, hj, Option.bind_some, Source.lookup?_cons, hu]
    rfl
  rw [hschemas hv hms, hschemas hw hns]
  exact hp

theorem Relists.sourceWrites_eq (h : Relists document document') (source : Source) :
    sourceWrites config (source.withDocument document) =
      sourceWrites config (source.withDocument document') := by
  have hpaths : Source.membersAt document ["paths"] = Source.membersAt document' ["paths"] := by
    rw [Source.membersAt, Source.membersAt, Source.lookup?_cons, Source.lookup?_cons,
      h.get?_eq (by decide)]
  have hsecurity : documentSecurity? document = documentSecurity? document' := by
    rw [documentSecurity?, documentSecurity?, h.get?_eq (by decide)]
  have hkept : keptOf config (source.withDocument document) =
      keptOf config (source.withDocument document') := by
    unfold keptOf Source.withDocument
    rw [hsecurity]
    rfl
  unfold sourceWrites itemWrites
  rw [hkept]
  exact congrArg (List.flatMap _) hpaths

theorem Relists.tagsBehind_eq (h : Relists document document') (source : Source) (tags : List Json) :
    tagsBehind (source.withDocument document) tags = tagsBehind (source.withDocument document') tags := by
  have hitems : Source.itemsAt document "tags" = Source.itemsAt document' "tags" := by
    rw [Source.itemsAt, Source.itemsAt, h.get?_eq (by decide)]
  unfold tagsBehind Source.withDocument
  rw [hitems]
  rfl

/-! ## The decisions on both listings -/

theorem exists_settles {earlier : List Source} {source : Source} (hmerge : config.mergeSchemas = true)
    (hs : config.conflictStrategy = .override) (hb : addAll config earlier = .ok s)
    (hd : source.document.distinct = true) :
    ∃ t, Settles s source.service (schemasOf source.document) t (renamesBehind config earlier source) := by
  obtain ⟨t, r, hr, hsettles⟩ := schemaRenames_settles hmerge hs s hd
  have hbehind : renamesBehind config earlier source = r := by simp only [renamesBehind, hb, hr]
  rw [hbehind]
  exact ⟨t, hsettles⟩

theorem Relists.same_names_iff {earlier : List Source} {source : Source}
    (h : Relists source.document document') (hmerge : config.mergeSchemas = true)
    (hs : config.conflictStrategy = .override) (hb : addAll config earlier = .ok s) (hclear : Clear s)
    (hd : source.document.distinct = true) :
    SameNames (renamesBehind config earlier source)
        (renamesBehind config earlier (source.withDocument document')) ↔
      ∀ m ∈ schemasOf source.document,
        ¬ Torn s source.service (renamesBehind config earlier source)
          (renamesBehind config earlier (source.withDocument document')) m ∧
        ¬ Torn s source.service (renamesBehind config earlier (source.withDocument document'))
          (renamesBehind config earlier source) m := by
  have hd' : (source.withDocument document').document.distinct = true := h.distinct hd
  obtain ⟨t, hsettles⟩ := exists_settles hmerge hs hb hd
  obtain ⟨t', hsettles'⟩ := exists_settles hmerge hs hb hd'
  exact same_names_iff_not_torn (h.schemasOf_perm hd) hsettles hsettles'
    (fun m hm => Json.distinct_of_mem (Source.distinct_object_membersAt hd _) hm)
    fun name existing hexisting => hclear schemaKind name existing hexisting

/-! ## Services that are set apart -/

/-- The source is of a service of its own, all names of schemas are plain, and no schema of an earlier source
refers to one of the source by the name with the service in front. -/
structure SetApart (earlier : List Source) (source : Source) : Prop where
  service : ∀ other ∈ earlier, other.service ≠ source.service
  plain : ∀ other ∈ source :: earlier, PlainNames other
  reference : ∀ other ∈ earlier, ∀ m ∈ schemasOf other.document, ∀ n ∈ schemasOf source.document,
    ⟨referenceStart ++ namespaced source.service n.1, false⟩ ∉ m.2.references

/-- What earlier sources left refers to no schema of the source by a name that it gets. -/
theorem SetApart.not_mem_references {earlier : List Source} {source : Source}
    (h : SetApart earlier source) (hd : ∀ other ∈ earlier, other.document.distinct = true)
    (hb : addAll config earlier = .ok s) {name : String} {stored : Json}
    (hstored : s.component? schemaKind name = some stored) {n : String × Json}
    (hn : n ∈ schemasOf source.document) :
    ⟨referenceStart ++ namespaced source.service n.1, false⟩ ∉ stored.references := by
  obtain ⟨done, other, rest, rfl, hw⟩ := origin_of_addAll hb hstored
  have hother : other ∈ done ++ other :: rest := by simp
  obtain ⟨m, hm, -, hvalue⟩ := (mem_writesBehind_schema (hd other hother)).1 hw
  have hplain := h.plain other (List.mem_cons_of_mem _ hother)
  have hplainName := (h.plain source List.mem_cons_self n hn).1
  rw [Renames.redirectMember_ne _ (hplain m hm).2] at hvalue
  rw [← hvalue, Renames.references_redirect]
  intro hmem
  obtain ⟨x, hx, hfollow⟩ := List.mem_map.1 hmem
  by_cases hhidden : x.hidden = true
  · rw [Renames.follow_hidden _ hhidden] at hfollow
    rw [hfollow] at hhidden
    cases hhidden
  have hvisible : x = ⟨x.target, false⟩ := by rw [← Bool.eq_false_iff.2 hhidden]
  rw [hvisible, Renames.follow_visible _ rfl] at hfollow
  have htarget := congrArg FoundReference.target hfollow
  -- the reference was so from the start, or it followed a new name that another service gave
  by_cases hrenamed : ∃ old, x.target = referenceStart ++ old ∧
      old ∈ Entries.keys (renamesBehind config done other)
  · obtain ⟨old, hold, hkey⟩ := hrenamed
    have hof := renamesOf_renamesBehind config done other
    obtain ⟨m', hm', rfl⟩ := List.mem_map.1 (hof.declared old hkey)
    dsimp only at htarget
    rw [hold, Renames.retarget_of_get? _ (hof.get?_of_mem hkey)] at htarget
    have hnames := String.append_right_inj _ |>.1 htarget
    exact h.service other hother (service_eq_of_namespaced (hplain m' hm').1 hplainName hnames)
  · have hself : (renamesBehind config done other).retarget x.target = x.target := by
      refine Renames.retarget_eq_self _ fun old hold => ?_
      exact (Entries.get?_eq_none_iff _ _).2 fun hkey => hrenamed ⟨old, hold, hkey⟩
    dsimp only at htarget
    rw [hself] at htarget
    rw [htarget] at hvisible
    exact h.reference other hother m hm n hn (hvisible ▸ hx)

theorem SetApart.not_torn {earlier : List Source} {source : Source} (h : SetApart earlier source)
    (hd : ∀ other ∈ earlier, other.document.distinct = true) (hb : addAll config earlier = .ok s)
    (hr' : ∀ name ∈ Entries.keys r', name ∈ Entries.keys (schemasOf source.document)) (m : String × Json) :
    ¬ Torn s source.service r r' m := by
  intro htorn
  obtain ⟨existing, name, hexisting, -, hname, -, hreference⟩ := htorn.ahead
  obtain ⟨n, hn, rfl⟩ := List.mem_map.1 (hr' name hname)
  exact h.not_mem_references hd hb hexisting hn hreference

/-! ## The same renames -/

/-- No schema of the source gets the name of another one of it. -/
def TellsApart (r : Renames) (source : Source) : Prop := ∀ key, ¬ Collides {} r source key

theorem PlainNames.tellsApart {source : Source} (h : PlainNames source) (r : Renames) :
    TellsApart r source := by
  intro key hcollides
  cases hcollides with
  | earlier m stored hm hr hstored => nomatch hstored
  | own m m' hm hr hm' hr' hname =>
    have hplain := (h m' hm').1
    rw [hname] at hplain
    exact hplain (dot_mem_namespaced _ _)
  | reference m stored hm hname hr hstored => nomatch hstored

/-- A source that tells its schemas apart puts one value under a key, however often. -/
theorem same_of_tellsApart {earlier : List Source} {source : Source} (hd : source.document.distinct = true)
    (h : TellsApart (renamesBehind config earlier source) source) :
    ∀ w ∈ writesBehind config earlier source, ∀ w' ∈ writesBehind config earlier source, w.1 = w'.1 →
      w.2.same w'.2 = true := by
  rintro ⟨⟨kind, key⟩, v⟩ hw ⟨_, v'⟩ hw' rfl
  by_cases hkind : kind = schemaKind
  · subst hkind
    obtain ⟨m, hm, hname, rfl⟩ := (mem_writesBehind_schema hd).1 hw
    obtain ⟨m', hm', hname', rfl⟩ := (mem_writesBehind_schema hd).1 hw'
    by_contra hdiffers
    exact h _ (collides_of_own hd hm hm' (hname.trans hname'.symm) (Bool.eq_false_iff.2 hdiffers))
  · have hsettled : (settled config earlier source).document.distinct = true :=
      Renames.distinct_redirect _ hd
    obtain ⟨m, hm, hname, rfl⟩ := (mem_componentWrites_kind hsettled).1 hw
    obtain ⟨m', hm', hname', rfl⟩ := (mem_componentWrites_kind hsettled).1 hw'
    rw [componentKey, if_neg hkind] at hname hname'
    have hmm : m = m' := List.inj_on_of_nodup_map (Source.nodup_keys_membersAt hsettled _) hm hm'
      (hname.trans hname'.symm)
    rw [hmm]
    exact Json.same_refl (distinct_of_mem_writesBehind hd hw')

/-- Where the values under a key are the same, so are the last of them in any two orders. -/
theorem sameFound_lookup_reverse_perm {writes writes' : List ((String × String) × Json)}
    (hp : writes.Perm writes')
    (h : ∀ w ∈ writes, ∀ w' ∈ writes, w.1 = w'.1 → w.2.same w'.2 = true) (place : String × String) :
    Json.SameFound (writes.reverse.lookup place) (writes'.reverse.lookup place) := by
  cases hv : writes.reverse.lookup place with
  | none =>
    rw [Entries.lookup_reverse_eq_none_iff, (hp.map Prod.fst).mem_iff] at hv
    rw [Entries.lookup_reverse_eq_none_iff.2 hv]
    exact .none
  | some v =>
    have hw := Entries.mem_of_lookup_reverse hv
    cases hv' : writes'.reverse.lookup place with
    | none =>
      rw [Entries.lookup_reverse_eq_none_iff, ← (hp.map Prod.fst).mem_iff] at hv'
      exact absurd (List.mem_map.2 ⟨_, hw, rfl⟩) hv'
    | some v' =>
      exact .some (h _ hw _ (hp.mem_iff.2 (Entries.mem_of_lookup_reverse hv')) rfl)

theorem Relists.alike {earlier : List Source} {source : Source} (h : Relists source.document document')
    (hd : source.document.distinct = true) (hb : addAll config earlier = .ok s) (hclear : Clear s)
    (ht : add config s source = .ok t) (ht' : add config s (source.withDocument document') = .ok t')
    (hclear' : Clear t')
    (hnames : SameNames (renamesBehind config earlier source)
      (renamesBehind config earlier (source.withDocument document')))
    (hapart : TellsApart (renamesBehind config earlier source) source) : Alike t t' := by
  have hd' : (source.withDocument document').document.distinct = true := h.distinct hd
  obtain ⟨_, r, hr, hpaths, htags, hput⟩ := content_of_add hd ht
  obtain ⟨_, r', hr', hpaths', htags', hput'⟩ := content_of_add hd' ht'
  have hof := renamesOf_schemaRenames hr
  have hof' := renamesOf_schemaRenames hr'
  have hbehind : renamesBehind config earlier source = r := by simp only [renamesBehind, hb, hr]
  have hbehind' : renamesBehind config earlier (source.withDocument document') = r' := by
    simp only [renamesBehind, hb, hr']
  have hsame := same_of_tellsApart hd hapart
  rw [writesBehind, settled, hbehind] at hsame
  rw [hbehind, hbehind'] at hnames
  have hget (name : String) : Entries.get? r name = Entries.get? r' name := hof.get?_eq hof' (hnames name)
  -- redirecting by either decision leaves two listings of one document
  have hlisted : Relists (r.redirect source.document) (r'.redirect document') := by
    rw [← Renames.redirect_eq_of_get? hget document']
    exact h.redirect r
  have hkey : ∀ kind key, componentKey r kind key = componentKey r' kind key := by
    intro kind key
    unfold componentKey
    rw [hget]
  have hperm : (componentWrites r (r.redirect source.document)).Perm
      (componentWrites r' (r'.redirect document')) := by
    unfold componentWrites
    simp only [hkey]
    exact (hlisted.componentsOf_perm (Renames.distinct_redirect r hd)).map _
  constructor
  case paths =>
    rw [hpaths, hpaths']
    exact congrArg (Entries.putAll s.paths) (hlisted.sourceWrites_eq source)
  case tags =>
    rw [htags, htags']
    exact hlisted.tagsBehind_eq source s.tags
  case components =>
    have hdistinct : ∀ w ∈ componentWrites r' (r'.redirect document'), w.2.distinct = true :=
      fun w hw => distinct_of_mem_componentWrites (Renames.distinct_redirect r' hd') hw
    refine sameFound_of_lastPut hput hput' hclear' hdistinct ?_ (sameFound_lookup_reverse_perm hperm hsame)
    exact fun kind key => Json.sameFound_self fun v hv => hclear kind key v hv

theorem Relists.same_toDocument {earlier later : List Source} {source : Source}
    (h : Relists source.document document')
    (hd : ∀ other ∈ earlier ++ source :: later, other.document.distinct = true)
    (hs : addAll config (earlier ++ source :: later) = .ok s)
    (hs' : addAll config (earlier ++ source.withDocument document' :: later) = .ok s')
    (hnames : SameNames (renamesBehind config earlier source)
      (renamesBehind config earlier (source.withDocument document')))
    (htells : TellsApart (renamesBehind config earlier source) source) :
    (s.toDocument config).same (s'.toDocument config) = true := by
  have hsource : source.document.distinct = true := hd source (by simp)
  have hd' : ∀ other ∈ earlier ++ source.withDocument document' :: later,
      other.document.distinct = true := by
    intro other hother
    obtain hother | hother := List.mem_append.1 hother
    · exact hd other (List.mem_append_left _ hother)
    obtain rfl | hother := List.mem_cons.1 hother
    · exact h.distinct hsource
    · exact hd other (List.mem_append_right _ (List.mem_cons_of_mem _ hother))
  have hsplit (x : Source) : earlier ++ x :: later = (earlier ++ [x]) ++ later := by simp
  obtain ⟨before, after, hb, ha, -⟩ := addAll_split hs
  obtain ⟨before', after', hb', ha', -⟩ := addAll_split hs'
  obtain rfl : before = before' := Except.ok.inj (hb.symm.trans hb')
  have hdone : addAll config (earlier ++ [source]) = .ok after := foldlM_concat_ok.2 ⟨before, hb, ha⟩
  have hdone' : addAll config (earlier ++ [source.withDocument document']) = .ok after' :=
    foldlM_concat_ok.2 ⟨before, hb, ha'⟩
  have hclear : Clear before := clear_of_addAll (fun other hother => hd other (by simp [hother])) hb
  have hclear' : Clear after' := by
    refine clear_of_addAll (fun other hother => ?_) hdone'
    exact hd' other (by rw [hsplit]; exact List.mem_append_left _ hother)
  have halike := h.alike hsource hb hclear ha ha' hclear' hnames htells
  refine Alike.same_toDocument ?_ hd' hs hs'
  rw [hsplit] at hd hd' hs hs'
  exact alike_of_addAll hd hd' hdone hdone' halike hs hs'

/-- What hangs on the order in which a source behind others lists its schemas, when `source'` lists them in
another one. -/
structure ListingDecides (c : Combiner) (earlier : List Source) (source source' : Source)
    (later : List Source) : Prop where
  /-- The same schemas are renamed exactly when none of them is torn. -/
  names : ∃ before, addAll c.config earlier = .ok before ∧
    (SameNames (renamesBehind c.config earlier source) (renamesBehind c.config earlier source') ↔
      ∀ m ∈ schemasOf source.document,
        ¬ Torn before source.service (renamesBehind c.config earlier source)
          (renamesBehind c.config earlier source') m ∧
        ¬ Torn before source.service (renamesBehind c.config earlier source')
          (renamesBehind c.config earlier source) m)
  /-- They are among services that are set apart, and then schemas can be told apart. -/
  apart : SetApart earlier source →
    SameNames (renamesBehind c.config earlier source) (renamesBehind c.config earlier source') ∧
      TellsApart (renamesBehind c.config earlier source) source
  /-- The same renames of schemas that can be told apart give the same document. -/
  document : SameNames (renamesBehind c.config earlier source) (renamesBehind c.config earlier source') →
    TellsApart (renamesBehind c.config earlier source) source →
    ∃ combined combined', c.combine.2 = .ok combined ∧
      (c.withSources (earlier ++ source' :: later)).combine.2 = .ok combined' ∧
      combined.same combined' = true

end MergeState

/-- Under the strategy `override`, listing the schemas of one source in another order renames the same schemas
unless one of them is torn, and then gives the same document unless a schema takes the name of another one of the
source. Neither happens among services that are set apart. -/
theorem combine_relisted (c : Combiner) {earlier later : List Source} {source : Source} {document' : Json}
    (hsources : c.sources = earlier ++ source :: later) (hmerge : c.config.mergeSchemas = true)
    (hs : c.config.conflictStrategy = .override)
    (hd : ∀ other ∈ c.sources, other.document.distinct = true)
    (h : MergeState.Relists source.document document') :
    MergeState.ListingDecides c earlier source (source.withDocument document') later := by
  have hstrategy : c.config.conflictStrategy ≠ .error := by simp [hs]
  have hsource : source.document.distinct = true := hd source (by simp [hsources])
  have hearlier : ∀ other ∈ earlier, other.document.distinct = true :=
    fun other hother => hd other (by simp [hsources, hother])
  obtain ⟨before, hb⟩ := MergeState.exists_addAll_ok hstrategy earlier
  have hclear := MergeState.clear_of_addAll hearlier hb
  have hnames := h.same_names_iff hmerge hs hb hclear hsource
  refine ⟨⟨before, hb, hnames⟩, ?_, ?_⟩
  · intro hapart
    have hof := MergeState.renamesOf_renamesBehind c.config earlier source
    have hof' := MergeState.renamesOf_renamesBehind c.config earlier (source.withDocument document')
    have hkeys := (h.schemasOf_perm hsource).map Prod.fst
    have hlisted := fun name hname => hkeys.mem_iff.2 (hof'.declared name hname)
    refine ⟨hnames.2 fun m _ => ⟨?_, ?_⟩, ?_⟩
    · exact hapart.not_torn hearlier hb hlisted m
    · exact hapart.not_torn hearlier hb hof.declared m
    · exact (hapart.plain source List.mem_cons_self).tellsApart _
  · intro hsame htells
    obtain ⟨s, hrun⟩ := MergeState.exists_addAll_ok hstrategy c.sources
    obtain ⟨s', hrun'⟩ := MergeState.exists_addAll_ok hstrategy
      (earlier ++ source.withDocument document' :: later)
    have hcombined := Combiner.combine_eq (c := c) (by simp [hsources]) hrun
    have hcombined' := Combiner.combine_eq
      (c := c.withSources (earlier ++ source.withDocument document' :: later))
      (by simp [Combiner.withSources]) hrun'
    rw [hsources] at hd hrun
    exact ⟨_, _, congrArg Prod.snd hcombined, congrArg Prod.snd hcombined',
      h.same_toDocument hd hrun hrun' hsame htells⟩

/-- A document of schemas. -/
def schemasOnly (schemas : List (String × Json)) : Json :=
  .object [("components", .object [("schemas", .object schemas)])]

theorem relists_schemasOnly {schemas schemas' : List (String × Json)} (hp : schemas.Perm schemas') :
    MergeState.Relists (schemasOnly schemas) (schemasOnly schemas') :=
  .mk [] [] (.mk [] [] (.mk hp))

/-- Three services whose users differ, and with them the orders that refer to users. -/
def threeUsers : Combiner where
  config := {}
  sources :=
    [{ service := "a", document := schemasOnly (MergeState.orderSchemas "string") },
      { service := "b", document := schemasOnly (MergeState.orderSchemas "object") },
      { service := "c", document := schemasOnly (MergeState.orderSchemas "array") }]

theorem combine_relisted_threeUsers :
    ∃ earlier source later, threeUsers.sources = earlier ++ source :: later ∧
      threeUsers.config.mergeSchemas = true ∧ threeUsers.config.conflictStrategy = .override ∧
      (∀ other ∈ threeUsers.sources, other.document.distinct = true) ∧
      MergeState.Relists source.document (schemasOnly (MergeState.orderSchemas "object").reverse) ∧
      MergeState.ListingDecides threeUsers earlier source
        (source.withDocument (schemasOnly (MergeState.orderSchemas "object").reverse)) later ∧
      MergeState.SetApart earlier source := by
  let a : Source := { service := "a", document := schemasOnly (MergeState.orderSchemas "string") }
  let b : Source := { service := "b", document := schemasOnly (MergeState.orderSchemas "object") }
  let c : Source := { service := "c", document := schemasOnly (MergeState.orderSchemas "array") }
  have hsources : threeUsers.sources = [a] ++ b :: [c] := rfl
  have hd : ∀ other ∈ threeUsers.sources, other.document.distinct = true := by decide
  have hlists : MergeState.Relists b.document (schemasOnly (MergeState.orderSchemas "object").reverse) :=
    relists_schemasOnly (List.reverse_perm _).symm
  have happart : MergeState.SetApart [a] b := by
    constructor
    case service => decide
    case plain =>
      simp only [MergeState.PlainNames]
      decide +kernel
    case reference => decide +kernel
  exact ⟨[a], b, [c], hsources, rfl, rfl, hd, hlists, combine_relisted threeUsers hsources rfl rfl hd hlists,
    happart⟩

/-- What was combined before with the users of a service `b`, and that service once more. -/
def combinedBefore : Combiner where
  config := {}
  sources :=
    let ofType (name : String) : Json := .object [("type", .string name)]
    let order (user : String) : Json :=
      .object [("items", .object [("$ref", .string (referenceStart ++ user))])]
    [{ service := "a",
        document := schemasOnly
          [("User", ofType "string"), ("b.User", ofType "object"), ("Order", order "b.User")] },
      { service := "b", document := schemasOnly [("Order", order "User"), ("User", ofType "object")] }]

/-- The orders are renamed when they are listed in front of the users, and shared when they are listed behind. -/
theorem combinedBefore_torn_by_listing :
    combinedBefore.config.mergeSchemas = true ∧ combinedBefore.config.conflictStrategy = .override ∧
      (∀ other ∈ combinedBefore.sources, other.document.distinct = true) ∧
      ∃ earlier source document', combinedBefore.sources = [earlier, source] ∧
        MergeState.Relists source.document document' ∧
        Entries.keys (MergeState.renamesBehind {} [earlier] source) = ["Order", "User"] ∧
        Entries.keys (MergeState.renamesBehind {} [earlier] (source.withDocument document')) = ["User"] ∧
        (combinedBefore.combine.2.toOption.bind fun combined =>
          (combinedBefore.withSources [earlier, source.withDocument document']).combine.2.toOption.map
            combined.same) = some false := by
  let ofType (name : String) : Json := .object [("type", .string name)]
  let order (user : String) : Json :=
    .object [("items", .object [("$ref", .string (referenceStart ++ user))])]
  have hd : ∀ other ∈ combinedBefore.sources, other.document.distinct = true := by decide
  refine ⟨rfl, rfl, hd, _, _, schemasOnly [("User", ofType "object"), ("Order", order "User")], rfl,
    relists_schemasOnly (List.Perm.swap _ _ _), ?_, ?_, ?_⟩
  · decide +kernel
  · decide +kernel
  · decide +kernel

end ApiDescription

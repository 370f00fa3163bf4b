import ApiDescription.Proofs.Combine.Document

/-!
# Which tags a combined document has

Under each name one tag is found, if any (`tagNamed?`). A source that declares tags adds what it finds under
names that are still free, and a source with metadata puts a tag in place of whatever stands under the
name of its service (`tagNamed?_tagsBehind`). So what is found at the end is the tag of the last source with
metadata, and else the first declaration (`tagNamed?_of_addAll`). The former says what is known of the service
and nothing besides (`tellsOf_metadataTag`).
-/

set_option autoImplicit false

namespace ApiDescription.MergeState

variable {config : CombineConfig} {sources : List Source} {s : MergeState} {name : String}

/-! ## Tags by name -/

def tagNamed? (tags : List Json) (name : String) : Option Json := tags.find? (tagName? · == some name)

theorem tagName?_of_tagNamed? {tags : List Json} {tag : Json} (h : tagNamed? tags name = some tag) :
    tagName? tag = some name := by
  simpa using List.find?_some h

theorem mem_of_tagNamed? {tags : List Json} {tag : Json} (h : tagNamed? tags name = some tag) : tag ∈ tags :=
  List.mem_of_find?_eq_some h

theorem tagNamed?_eq_none_iff {tags : List Json} :
    tagNamed? tags name = none ↔ ∀ tag ∈ tags, tagName? tag ≠ some name := by
  simp [tagNamed?]

theorem tagNamed?_append (tags more : List Json) :
    tagNamed? (tags ++ more) name = (tagNamed? tags name).or (tagNamed? more name) :=
  List.find?_append

theorem tagNamed?_singleton (tag : Json) :
    tagNamed? [tag] name = if tagName? tag = some name then some tag else none := by
  simp [tagNamed?, List.find?_singleton]

theorem NamedOnce.tagNamed? {tags : List Json} (h : NamedOnce tags) {tag : Json} (ht : tag ∈ tags)
    (hname : tagName? tag = some name) : tagNamed? tags name = some tag := by
  cases hfind : MergeState.tagNamed? tags name with
  | none => exact absurd hname (tagNamed?_eq_none_iff.1 hfind tag ht)
  | some other =>
    have hsame : tagName? other = tagName? tag := (tagName?_of_tagNamed? hfind).trans hname.symm
    rw [List.inj_on_of_nodup_map h.once (mem_of_tagNamed? hfind) ht hsame]

theorem tagNamed?_filter (tags : List Json) (other : String) :
    tagNamed? (tags.filter fun tag => tagName? tag != some other) name =
      if name = other then none else tagNamed? tags name := by
  rw [tagNamed?, List.find?_filter]
  split
  · next heq =>
    rw [List.find?_eq_none]
    intro tag _
    simp [heq]
  · next hne =>
    -- whatever has this name does not have the other one
    congr 1
    funext tag
    cases tagName? tag with
    | none => simp
    | some given =>
      by_cases hgiven : given = name <;> simp [hgiven, hne]

/-! ## What one source does to the tag of a name -/

theorem tagNamed?_declareTag (tags : List Json) (tag : Json) :
    tagNamed? (declareTag tags tag) name = tagNamed? (tags ++ [tag]) name := by
  unfold declareTag
  cases hname : tagName? tag with
  | none => rw [tagNamed?_append, tagNamed?_singleton, hname, if_neg (by simp), Option.or_none]
  | some given =>
    simp only
    split
    · next hany =>
      rw [tagNamed?_append, tagNamed?_singleton, hname]
      by_cases hgiven : given = name
      · -- the name is taken, and what was found under it stays
        subst hgiven
        cases hfind : tagNamed? tags given with
        | some found => rfl
        | none =>
          obtain ⟨other, ho, hother⟩ := List.any_eq_true.1 hany
          exact absurd (eq_of_beq hother) (tagNamed?_eq_none_iff.1 hfind other ho)
      · rw [if_neg (by simpa using hgiven), Option.or_none]
    · rfl

theorem tagNamed?_foldl_declareTag (tags declared : List Json) :
    tagNamed? (declared.foldl declareTag tags) name =
      (tagNamed? tags name).or (tagNamed? declared name) := by
  induction declared generalizing tags with
  | nil => simp [tagNamed?]
  | cons tag declared ih =>
    have hcons : tagNamed? (tag :: declared) name = (tagNamed? [tag] name).or (tagNamed? declared name) :=
      tagNamed?_append [tag] declared
    rw [List.foldl_cons, ih, tagNamed?_declareTag, tagNamed?_append, hcons, Option.or_assoc]

/-- The source has metadata, and its service is told of under the name. -/
def describes (name : String) (source : Source) : Bool :=
  source.hasMetadata && Service.tag source.service == name

def declaredTags (source : Source) : List Json := Source.itemsAt source.document "tags"

theorem tagNamed?_tagsBehind (source : Source) (tags : List Json) :
    tagNamed? (tagsBehind source tags) name =
      if describes name source then some (metadataTag source)
      else (tagNamed? tags name).or (tagNamed? (declaredTags source) name) := by
  unfold tagsBehind describes
  simp only
  cases hm : source.hasMetadata with
  | false => simp [tagNamed?_foldl_declareTag, declaredTags]
  | true =>
    rw [if_pos rfl, tagNamed?_append, tagNamed?_filter, tagNamed?_singleton, tagName?_metadataTag,
      tagNamed?_foldl_declareTag]
    by_cases hname : Service.tag source.service = name
    · simp [hname]
    · simp [hname, Ne.symm hname, declaredTags]

/-! ## What a run does to the tag of a name -/

/-- The last source that has metadata and whose service is told of under the name. -/
def lastDescribing? (sources : List Source) (name : String) : Option Source :=
  sources.reverse.find? (describes name)

/-- The tags that the documents declare as they go in, one source behind the other. -/
def declarations (config : CombineConfig) (sources : List Source) : List Json :=
  (settledSources config sources).flatMap declaredTags

theorem lastDescribing?_concat (done : List Source) (source : Source) :
    lastDescribing? (done ++ [source]) name =
      if describes name source then some source else lastDescribing? done name := by
  rw [lastDescribing?, List.reverse_concat, List.find?_cons]
  cases describes name source <;> rfl

theorem declarations_concat (done : List Source) (source : Source) :
    declarations config (done ++ [source]) =
      declarations config done ++ declaredTags (settled config done source) := by
  rw [declarations, settledSources_concat, List.flatMap_append, List.flatMap_singleton]
  rfl

/-- What a run leaves under a name is told by the last metadata, and when there is none by the first declaration. -/
theorem tagNamed?_of_addAll (h : addAll config sources = .ok s) :
    tagNamed? s.tags name =
      ((lastDescribing? sources name).map metadataTag).or (tagNamed? (declarations config sources) name) := by
  rw [tags_of_addAll h]
  clear h
  induction sources using List.reverseRecOn with
  | nil => rfl
  | append_singleton done source ih =>
    -- a source keeps what is known about its service as it goes in
    have hdescribes : describes name (settled config done source) = describes name source := rfl
    have hmetadata : metadataTag (settled config done source) = metadataTag source := rfl
    rw [settledSources_concat, List.foldl_concat, tagNamed?_tagsBehind, ih, hdescribes, hmetadata,
      lastDescribing?_concat, declarations_concat, tagNamed?_append]
    cases describes name source with
    | true => rfl
    | false => exact Option.or_assoc

/-! ## What a tag tells of a service -/

/-- The tag tells what the source knows about its service, and nothing else. -/
structure TellsOf (source : Source) (tag : Json) : Prop where
  name : tag.get? "name" = some (.string ("service:" ++ source.service))
  description : tag.get? "description" = source.description.map .string
  version : tag.get? "x-service-version" = source.version.map .string
  healthCheck : tag.get? "x-health-check" = source.healthCheck.map .string
  nothingElse : ∀ members, tag.members? = some members → (Entries.keys members).Nodup ∧
    Entries.keys members ⊆ ["name", "description", "x-service-version", "x-health-check"]

theorem tellsOf_metadataTag (source : Source) : TellsOf source (metadataTag source) := by
  obtain ⟨service, origin, document, tags, description, version, healthCheck⟩ := source
  constructor
  case name => rfl
  case nothingElse =>
    intro members hmembers
    cases hmembers
    cases description <;> cases version <;> cases healthCheck <;>
      simp [Json.member?, Entries.keys]
  all_goals cases description <;> cases version <;> cases healthCheck <;> rfl

/-! ## In terms of the sources as given -/

def LastDescription (sources : List Source) (service : String) (source : Source) : Prop :=
  ∃ earlier later, sources = earlier ++ source :: later ∧ source.service = service ∧
    source.hasMetadata = true ∧ ∀ other ∈ later, other.service = service → other.hasMetadata = false

/-- A tag is the first declaration of a name: no source before declares the name, and the references of the
tag follow the renames of the source that does. -/
def FirstDeclaration (config : CombineConfig) (sources : List Source) (name : String) (tag : Json) : Prop :=
  ∃ earlier source later, sources = earlier ++ source :: later ∧
    (∀ other ∈ earlier, tagNamed? (declaredTags other) name = none) ∧
    (tagNamed? (declaredTags source) name).map (renamesBehind config earlier source).redirect = some tag

theorem describes_tag_iff {service : String} {source : Source} :
    describes (Service.tag service) source = true ↔
      source.service = service ∧ source.hasMetadata = true := by
  have htag : Service.tag source.service = Service.tag service ↔ source.service = service :=
    ⟨fun h => String.append_right_inj _ |>.1 h, fun h => h ▸ rfl⟩
  rw [describes, Bool.and_eq_true, beq_iff_eq, htag, and_comm]

theorem lastDescription_of_lastDescribing? {service : String} {source : Source}
    (h : lastDescribing? sources (Service.tag service) = some source) :
    LastDescription sources service source := by
  obtain ⟨hdescribes, later, earlier, hsplit, hlater⟩ := List.find?_eq_some_iff_append.1 h
  obtain ⟨hservice, hmetadata⟩ := describes_tag_iff.1 hdescribes
  refine ⟨earlier.reverse, later.reverse, ?_, hservice, hmetadata, ?_⟩
  · rw [← List.reverse_reverse sources, hsplit]
    simp
  · intro other ho hother
    have hnot : describes (Service.tag service) other = false := by
      simpa using hlater other (List.mem_reverse.1 ho)
    cases hm : other.hasMetadata with
    | false => rfl
    | true => rw [describes_tag_iff.2 ⟨hother, hm⟩] at hnot; cases hnot

theorem exists_of_lastDescribing? {source : Source} (h : lastDescribing? sources name = some source) :
    source ∈ sources ∧ source.hasMetadata = true ∧ Service.tag source.service = name := by
  have hdescribes := List.find?_some h
  rw [describes, Bool.and_eq_true, beq_iff_eq] at hdescribes
  exact ⟨List.mem_reverse.1 (List.mem_of_find?_eq_some h), hdescribes⟩

theorem lastDescribing?_eq_none_iff :
    lastDescribing? sources name = none ↔
      ∀ source ∈ sources, source.hasMetadata = true → Service.tag source.service ≠ name := by
  simp [lastDescribing?, describes]

theorem tagName?_redirect (r : Renames) (tag : Json) : tagName? (r.redirect tag) = tagName? tag := by
  unfold tagName?
  rw [Renames.get?_redirect]
  cases tag.get? "name" with
  | none => rfl
  | some value =>
    rw [Option.map_some, Option.bind_some, Option.bind_some,
      Renames.redirectMember_ne r (by decide), Renames.string?_redirect]

theorem tagNamed?_declaredTags_settled (earlier : List Source) (source : Source) :
    tagNamed? (declaredTags (settled config earlier source)) name =
      (tagNamed? (declaredTags source) name).map (renamesBehind config earlier source).redirect := by
  have hitems : declaredTags (settled config earlier source) =
      (declaredTags source).map (renamesBehind config earlier source).redirect :=
    Renames.itemsAt_redirect _ source.document (by decide)
  rw [hitems, tagNamed?, List.find?_map, tagNamed?]
  congr 2
  funext tag
  rw [Function.comp_apply, tagName?_redirect]

-- renames change no name of a tag, so the sources as given tell which names are declared
theorem tagNamed?_declarations_eq_none_iff :
    tagNamed? (declarations config sources) name = none ↔
      ∀ source ∈ sources, tagNamed? (declaredTags source) name = none := by
  induction sources using List.reverseRecOn with
  | nil => simp [declarations, settledSources, tagNamed?]
  | append_singleton done source ih =>
    rw [declarations_concat, tagNamed?_append, Option.or_eq_none_iff, ih,
      tagNamed?_declaredTags_settled, Option.map_eq_none_iff]
    simp [or_imp, forall_and]

theorem firstDeclaration_of_tagNamed? {tag : Json}
    (h : tagNamed? (declarations config sources) name = some tag) :
    FirstDeclaration config sources name tag := by
  induction sources using List.reverseRecOn with
  | nil => cases h
  | append_singleton done source ih =>
    rw [declarations_concat, tagNamed?_append, Option.or_eq_some_iff] at h
    rcases h with h | ⟨hnone, h⟩
    · obtain ⟨earlier, first, later, hsplit, hearlier, htag⟩ := ih h
      refine ⟨earlier, first, later ++ [source], ?_, hearlier, htag⟩
      rw [hsplit, List.append_assoc, List.cons_append]
    · rw [tagNamed?_declaredTags_settled] at h
      exact ⟨done, source, [], rfl, tagNamed?_declarations_eq_none_iff.1 hnone, h⟩

/-! ## The tags of the combined document -/

/-- The tags of a combined document, by the sources. -/
structure TagsSettled (config : CombineConfig) (sources : List Source) (document : Json) : Prop where
  listed : document.get? "tags" =
    if Source.itemsAt document "tags" = [] then none else some (.array (Source.itemsAt document "tags"))
  named : ∀ tag ∈ Source.itemsAt document "tags", ∃ name, tagName? tag = some name
  once : ((Source.itemsAt document "tags").map tagName?).Nodup
  /-- A service with metadata has a tag that tells what its last source with metadata knows. -/
  described : ∀ source ∈ sources, source.hasMetadata = true →
    ∃ last, LastDescription sources source.service last ∧
      ∃ tag ∈ Source.itemsAt document "tags", TellsOf last tag
  /-- Any other name has its first declaration. -/
  declared : ∀ source ∈ sources, ∀ tag ∈ Source.itemsAt source.document "tags", ∀ name,
    tagName? tag = some name →
    (∀ other ∈ sources, other.hasMetadata = true → Service.tag other.service ≠ name) →
      ∃ first, FirstDeclaration config sources name first ∧ tagName? first = some name ∧
        first ∈ Source.itemsAt document "tags"
  nothingElse : ∀ tag ∈ Source.itemsAt document "tags",
    (∃ service last, LastDescription sources service last ∧ TellsOf last tag) ∨
      ∃ name, FirstDeclaration config sources name tag ∧
        ∀ other ∈ sources, other.hasMetadata = true → Service.tag other.service ≠ name

theorem tagsSettled_toDocument (h : addAll config sources = .ok s) :
    TagsSettled config sources (s.toDocument config) := by
  have honce := namedOnce_of_addAll h
  have hfound : ∀ name, tagNamed? s.tags name = ((lastDescribing? sources name).map metadataTag).or
      (tagNamed? (declarations config sources) name) := fun name => tagNamed?_of_addAll h
  refine ⟨?_, ?_, ?_, ?_, ?_, ?_⟩
  · rw [itemsAt_tags_toDocument]
    exact get?_tags_toDocument s
  · rw [itemsAt_tags_toDocument]
    exact fun tag ht => Option.isSome_iff_exists.1 (honce.named tag ht)
  · rw [itemsAt_tags_toDocument]
    exact honce.once
  · intro source hs hm
    rw [itemsAt_tags_toDocument]
    cases hlast : lastDescribing? sources (Service.tag source.service) with
    | none => exact absurd rfl (lastDescribing?_eq_none_iff.1 hlast source hs hm)
    | some last =>
      have htag := hfound (Service.tag source.service)
      rw [hlast] at htag
      exact ⟨last, lastDescription_of_lastDescribing? hlast, metadataTag last, mem_of_tagNamed? htag,
        tellsOf_metadataTag last⟩
  · intro source hs tag ht name hname hundescribed
    rw [itemsAt_tags_toDocument]
    have htag := hfound name
    rw [lastDescribing?_eq_none_iff.2 hundescribed, Option.map_none, Option.none_or] at htag
    cases hfirst : tagNamed? (declarations config sources) name with
    | none =>
      have hnone := tagNamed?_declarations_eq_none_iff.1 hfirst source hs
      exact absurd hname (tagNamed?_eq_none_iff.1 hnone tag ht)
    | some first =>
      rw [hfirst] at htag
      exact ⟨first, firstDeclaration_of_tagNamed? hfirst, tagName?_of_tagNamed? hfirst,
        mem_of_tagNamed? htag⟩
  · intro tag ht
    rw [itemsAt_tags_toDocument] at ht
    obtain ⟨name, hname⟩ := Option.isSome_iff_exists.1 (honce.named tag ht)
    have htag := hfound name
    rw [honce.tagNamed? ht hname] at htag
    cases hlast : lastDescribing? sources name with
    | some last =>
      rw [hlast] at htag
      obtain ⟨-, -, rfl⟩ := exists_of_lastDescribing? hlast
      cases Option.some.inj htag
      exact Or.inl ⟨last.service, last, lastDescription_of_lastDescribing? hlast, tellsOf_metadataTag last⟩
    | none =>
      rw [hlast, Option.map_none, Option.none_or] at htag
      exact Or.inr ⟨name, firstDeclaration_of_tagNamed? htag.symm, lastDescribing?_eq_none_iff.1 hlast⟩

end MergeState

/-- The tags of a combined document have names of their own. What is known about a service makes its tag, by the last
source that knows something, and every other name that a source declares keeps its first declaration. -/
theorem combine_settles_tags (c : Combiner) {document : Json} (h : c.combine.2 = .ok document) :
    MergeState.TagsSettled c.config c.sources document := by
  obtain ⟨s, hrun, rfl⟩ := Combiner.exists_addAll_of_combine h
  exact MergeState.tagsSettled_toDocument hrun

/-- Sources of the services `a` and `b` that declare `users`, and tags named like those of the services, before and
after there is metadata of them. -/
def describedTwice : Combiner where
  config := {}
  sources :=
    let declaring (names : List (String × String)) : Json :=
      .object [("tags", .array (names.map fun (name, description) =>
        .object [("name", .string name), ("description", .string description)]))]
    [{ service := "a", document := declaring [("users", "of a"), ("service:b", "by a")] },
      { service := "b", document := declaring [("service:a", "by b")], version := some "1" },
      { service := "a", document := declaring [("users", "again")], description := some "old" },
      { service := "a", document := declaring [("service:a", "by itself")], healthCheck := some "/up" },
      { service := "a", document := declaring [("service:b", "late"), ("jobs", "late")] }]

theorem combine_settles_tags_describedTwice :
    ∃ document, describedTwice.combine.2 = .ok document ∧
      MergeState.TagsSettled describedTwice.config describedTwice.sources document ∧
      Source.itemsAt document "tags" =
        [.object [("name", .string "users"), ("description", .string "of a")],
          .object [("name", .string "service:b"), ("x-service-version", .string "1")],
          .object [("name", .string "service:a"), ("x-health-check", .string "/up")],
          .object [("name", .string "jobs"), ("description", .string "late")]] := by
  obtain ⟨document, h⟩ := exists_ok_of_isOk (x := describedTwice.combine.2) (by decide +kernel)
  have htags : describedTwice.combine.2.toOption.map (Source.itemsAt · "tags") = some
      [.object [("name", .string "users"), ("description", .string "of a")],
        .object [("name", .string "service:b"), ("x-service-version", .string "1")],
        .object [("name", .string "service:a"), ("x-health-check", .string "/up")],
        .object [("name", .string "jobs"), ("description", .string "late")]] := by decide +kernel
  rw [h] at htags
  exact ⟨document, h, combine_settles_tags describedTwice h, Option.some.inj htags⟩

end ApiDescription

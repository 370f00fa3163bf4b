import ApiDescription.Command.Generate
import ApiDescription.Proofs.Api.Emit
import ApiDescription.Proofs.Manifest.Definition

/-!
# Documents mean what their manifests say

An operation of a document has the responses and the security that its definition in a manifest gives it
(`OperationDefinition.yields_of_compile`), and of the definitions of all manifests each becomes one operation
(`GenerateOptions.renders_of_document`).
-/

set_option autoImplicit false

namespace ApiDescription

open scoped List

/-! ## Definitions -/

namespace OperationDefinition

variable {o : OperationDefinition} {d : OperationDraft} {op : Operation}

/-- The codes that the definition gives responses for. -/
def givenCodes (o : OperationDefinition) : List Nat :=
  o.listedCodes ++ o.errors ++ if o.response.isSome then [o.successStatus] else []

/-- The codes of the responses of the operation. -/
def responseCodes (o : OperationDefinition) : List Nat :=
  if o.givenCodes = [] then [o.successStatus, 400, 500] else o.givenCodes

/-- The operation in the document is what the definition says. -/
structure Means (o : OperationDefinition) (object : OperationObject) : Prop where
  /-- Every text in the place of a status code spells one. -/
  parsed : ∀ r ∈ o.responses, (statusCode? r.1).isSome = true
  keys : ∀ key, key ∈ Entries.keys object.responses ↔ ∃ code ∈ o.responseCodes, key = toString code
  distinct : (Entries.keys object.responses).Nodup
  security : object.security = if o.isPublic then some [] else o.security

/-- The operation is made of the definition. -/
structure Yields (o : OperationDefinition) (op : Operation) : Prop where
  path : op.path = o.path
  method : op.method = o.method
  means : o.Means op.toObject

theorem Drafts.mem_codes_iff (h : o.Drafts d) (hpassed : d.Compiles op) (code : Nat) :
    code ∈ op.responses.map Prod.fst ↔ code ∈ o.givenCodes := by
  have hascending := (hpassed.response h.inOrder).1
  rw [← Sorted.has_iff_of_ascending hascending, hpassed.hasResponse_iff h.inOrder,
    h.responses hpassed.errors, h.success, h.successCode, givenCodes, List.mem_append]
  split
  · next hsome => simp [hsome, or_assoc]
  · next hnone => simp [hnone]

theorem Drafts.mem_writtenCodes_iff (h : o.Drafts d) (hpassed : d.Compiles op) (code : Nat) :
    code ∈ op.writtenCodes ↔ code ∈ o.responseCodes := by
  have hempty : op.responses = [] ↔ o.givenCodes = [] := by
    rw [← List.map_eq_nil_iff (f := Prod.fst), List.eq_nil_iff_forall_not_mem, List.eq_nil_iff_forall_not_mem]
    exact forall_congr' fun code => not_congr (h.mem_codes_iff hpassed code)
  unfold Operation.writtenCodes responseCodes
  by_cases hnone : o.givenCodes = []
  · rw [if_pos (hempty.2 hnone), if_pos hnone, hpassed.successCode, h.successCode]
    rfl
  · rw [if_neg (mt hempty.1 hnone), if_neg hnone]
    exact h.mem_codes_iff hpassed code

theorem Drafts.yields (h : o.Drafts d) (hpassed : d.Compiles op) : o.Yields op where
  path := hpassed.path.trans h.path
  method := by
    have hmethod := hpassed.method.symm.trans h.method
    exact Option.some_inj.1 hmethod
  means := {
    parsed := h.parsed
    keys := fun key => by
      simp only [← h.mem_writtenCodes_iff hpassed]
      exact op.mem_keys_responseObjects_iff key
    distinct := Operation.nodup_keys_responseObjects (hpassed.response h.inOrder).1
    security := hpassed.security.trans h.security }

theorem yields_of_compile [PatternReader] {origin : String} {row : String × Operation}
    (h : o.compile origin = .ok row) : o.Yields row.2 := by
  unfold compile at h
  split at h
  · nomatch h
  · next d hd =>
    split at h
    · nomatch h
    · next op hop =>
      cases h
      exact (drafts_of_draft hd).yields (OperationDraft.compiles_of_compile hop)

end OperationDefinition

/-! ## Manifests -/

theorem Discovered.operations_foldl (ds : List Discovered) (d : Discovered) :
    (ds.foldl (· ++ ·) d).operations = d.operations ++ ds.flatMap (·.operations) := by
  induction ds generalizing d with
  | nil => simp
  | cons e ds ih =>
    have happend : (d ++ e).operations = d.operations ++ e.operations := rfl
    rw [List.foldl_cons, ih, happend, List.flatMap_cons, List.append_assoc]

namespace RouteManifest

/-- Entries that stand in the order of their names are taken as they stand. -/
theorem pathsIn_of_sorted {path name : String} {entries : List (String × FileTree)}
    (h : (pathsInEntries path entries).Pairwise fun a b => a.1 ≤ b.1) :
    pathsIn path name (.directory entries) = (pathsInEntries path entries).flatMap Prod.snd := by
  rw [pathsIn, List.mergeSort_of_pairwise (h.imp fun hle => decide_eq_true hle)]

variable [PatternReader]

/-- What a manifest at a path lists, if all of it is in order. -/
def listing (e : String × RouteManifest) : Except ManifestError Discovered :=
  (e.2.discover e.1).2.map fun _ => (e.2.discover e.1).1

/-- What manifests list, one after the other. -/
def gather (ms : List (String × RouteManifest)) : Except ManifestError Discovered :=
  (ms.mapM listing).map fun all => all.foldl (· ++ ·) {}

variable {ms : List (String × RouteManifest)} {d : Discovered}

theorem listing_ok_iff {e : String × RouteManifest} : listing e = .ok d ↔ e.2.discover e.1 = (d, .ok ()) := by
  unfold listing
  obtain ⟨found, result⟩ := e.2.discover e.1
  cases result <;> simp [Except.map]

theorem gather_ok_iff : gather ms = .ok d ↔
    ∃ all, List.Forall₂ (fun e found => listing e = .ok found) ms all ∧ all.foldl (· ++ ·) {} = d := by
  unfold gather
  simp only [← mapM_ok_iff]
  cases ms.mapM listing <;> simp [Except.map]

theorem collect_compile_of_discover {origin : String} {m : RouteManifest} (h : m.discover origin = (d, .ok ())) :
    collect (OperationDefinition.compile origin) m.operations = (d.operations, .ok ()) := by
  unfold discover at h
  dsimp only at h
  split at h
  · nomatch h
  · obtain ⟨rfl, hresult⟩ := Prod.mk.inj h
    exact Prod.ext rfl hresult

/-- Each definition becomes an operation. -/
theorem yields_of_listing {e : String × RouteManifest} (h : listing e = .ok d) :
    List.Forall₂ (fun o op => o.Yields op) e.2.operations (d.operations.map Prod.snd) := by
  have hcompiled := collect_ok_iff.1 (collect_compile_of_discover (listing_ok_iff.1 h))
  exact List.forall₂_map_right_iff.2 (hcompiled.imp fun _ _ => OperationDefinition.yields_of_compile)

theorem yields_of_gather (h : gather ms = .ok d) :
    List.Forall₂ (fun o op => o.Yields op) (ms.flatMap fun e => e.2.operations) (d.operations.map Prod.snd) := by
  obtain ⟨all, hall, rfl⟩ := gather_ok_iff.1 h
  have hsplit : (all.foldl (· ++ ·) ({} : Discovered)).operations.map Prod.snd =
      all.flatMap fun found => found.operations.map Prod.snd := by
    rw [Discovered.operations_foldl, List.map_append, List.map_flatMap]
    rfl
  rw [hsplit]
  exact List.rel_flatMap hall fun _ _ => yields_of_listing

theorem exists_of_discoverFile {files : FileTree} {ps : List String} {all : List Discovered}
    (h : List.Forall₂ (fun p found => discoverFile files p = .ok found) ps all) :
    ∃ ms : List (String × RouteManifest), ms.map Prod.fst = ps ∧ (∀ e ∈ ms, load files e.1 = .ok e.2) ∧
      List.Forall₂ (fun e found => listing e = .ok found) ms all := by
  induction h with
  | nil => exact ⟨[], rfl, by simp, .nil⟩
  | @cons p found ps all hp _ ih =>
    obtain ⟨m, hm, hdiscover⟩ := bind_ok_iff.1 hp
    obtain ⟨⟨⟩, hresult, ⟨⟩⟩ := bind_ok_iff.1 hdiscover
    obtain ⟨ms, rfl, hload, hlisting⟩ := ih
    exact ⟨(p, m) :: ms, rfl, List.forall_mem_cons.2 ⟨hm, hload⟩,
      .cons (listing_ok_iff.2 (Prod.ext rfl hresult)) hlisting⟩

theorem discoverAll_of_paths {files : FileTree} {root : String} {ps : List String} (h : paths files root = .ok ps) :
    discoverAll files root = (ps.mapM (discoverFile files)).map fun all => all.foldl (· ++ ·) {} := by
  rw [discoverAll, h]
  rfl

/-- The manifests that are found under a root are those that are gathered. -/
theorem gather_of_discoverAll {files : FileTree} {root : String} (h : discoverAll files root = .ok d) :
    ∃ ms : List (String × RouteManifest), paths files root = .ok (ms.map Prod.fst) ∧
      (∀ e ∈ ms, load files e.1 = .ok e.2) ∧ gather ms = .ok d := by
  obtain ⟨ps, hps, h⟩ := bind_ok_iff.1 h
  obtain ⟨all, hall, ⟨⟩⟩ := bind_ok_iff.1 h
  obtain ⟨ms, rfl, hload, hlisting⟩ := exists_of_discoverFile (mapM_ok_iff.1 hall)
  exact ⟨ms, hps, hload, gather_ok_iff.2 ⟨all, hlisting, rfl⟩⟩

end RouteManifest

/-! ## Documents -/

/-- Of each definition there is one operation in the document, and no other. -/
structure OpenApi.Renders (doc : OpenApi) (os : List OperationDefinition) : Prop where
  operations : (PathItem.located doc.paths).map (fun a => (a.1, a.2.1)) ~ os.map fun o => (o.path, o.method)
  distinct : (os.map fun o => (o.path, o.method)).Nodup
  means : ∀ o ∈ os, ∃ object, PathItem.at? doc.paths o.path o.method = some object ∧ o.Means object

theorem OpenApi.renders_of_emit {draft : ApiDraft} {ops : List Operation} {os : List OperationDefinition}
    {doc : OpenApi} (h : (draft.emit ops).2 = .ok doc) (hops : List.Forall₂ (fun o op => o.Yields op) os ops) :
    doc.Renders os := by
  have hholds := (ApiDraft.describesAll_of_emit h).holds
  have hdistinct := ((ApiDraft.emit_ok_iff (ApiDraft.errors_eq_nil_of_emit h)).1 h).1.routes
  have hroutes : os.map (fun o => (o.path, o.method)) = ops.map fun op => (op.path, op.method) :=
    map_eq_map_of_forall₂ hops fun o op hop => by rw [hop.path, hop.method]
  constructor
  case operations =>
    rw [hroutes]
    have hperm := hholds.operations.map fun a => (a.1, a.2.1)
    rw [List.map_map] at hperm
    exact hperm
  case distinct =>
    rw [hroutes]
    refine List.Nodup.of_map Prod.swap ?_
    rw [List.map_map]
    exact hdistinct
  case means =>
    intro o ho
    obtain ⟨op, hop, hyields⟩ := exists_of_mem_forall₂ hops ho
    exact ⟨op.toObject, (hholds.found _ _ _).2 ⟨op, hop, hyields.path, hyields.method, rfl⟩, hyields.means⟩

namespace GenerateOptions

/-- A document that is generated means what its manifests say, whatever the manifests are, and the manifests that
it is generated from are those in the files under its input. -/
theorem renders_of_document [PatternReader] (o : GenerateOptions) :
    (∀ ms d doc, RouteManifest.gather ms = .ok d → (o.document d).2 = .ok doc →
      doc.Renders (ms.flatMap fun e => e.2.operations)) ∧
    ∀ files d, RouteManifest.discoverAll files o.input = .ok d →
      ∃ ms : List (String × RouteManifest), RouteManifest.paths files o.input = .ok (ms.map Prod.fst) ∧
        (∀ e ∈ ms, RouteManifest.load files e.1 = .ok e.2) ∧ RouteManifest.gather ms = .ok d := by
  constructor
  · intro ms d doc hgather hdoc
    exact OpenApi.renders_of_emit hdoc (RouteManifest.yields_of_gather hgather)
  · intro files d h
    exact RouteManifest.gather_of_discoverAll h

/-- A manifest whose operation is public although it lists requirements. One of its errors has a response, under a code
with a zero in front, and there is one under the success code. -/
def itemsManifest : String :=
  "\x7b\"operations\":[\x7b\"method\":\"post\",\"path\":\"/items\",\"public\":true," ++
    "\"security\":[\x7b\"key\":[]\x7d],\"response\":\x7b\"type\":\"string\"\x7d," ++
    "\"responses\":\x7b\"0404\":\x7b\x7d\x7d,\"errors\":[404,500]\x7d]\x7d"

/-- A manifest whose operation lists requirements and no response. -/
def usersManifest : String :=
  "\x7b\"operations\":[\x7b\"method\":\"get\",\"path\":\"/users\",\"security\":[\x7b\"key\":[]\x7d]\x7d]\x7d"

/-- A directory with both manifests. -/
def manifestEntries : List (String × FileTree) :=
  [("items.routes.json", .file itemsManifest.toUTF8), ("users.routes.json", .file usersManifest.toUTF8)]

def manifestFiles : FileTree := .directory [("routes", .directory manifestEntries)]

theorem paths_manifestFiles : RouteManifest.paths manifestFiles "routes" =
    .ok ["routes/items.routes.json", "routes/users.routes.json"] := by
  have hresolve : manifestFiles.resolve? "routes" = some ["routes"] := by decide +kernel
  have hfound : manifestFiles.find? "routes" = some (.directory manifestEntries) := by
    rw [FileTree.find?, hresolve]
    simp [FileTree.at?, manifestFiles, Entries.get?]
  rw [RouteManifest.paths, hfound]
  dsimp only
  rw [RouteManifest.pathsIn_of_sorted (by decide +kernel)]
  decide +kernel

attribute [local instance] PatternReader.lenient

-- the search for equality of the shown rows doubles with every list around them
set_option synthInstance.maxSize 512 in
theorem renders_of_document_items :
    let o : GenerateOptions := { input := "routes" }
    ∃ ms d doc, RouteManifest.discoverAll manifestFiles o.input = .ok d ∧
      RouteManifest.paths manifestFiles o.input = .ok (ms.map Prod.fst) ∧
      (∀ e ∈ ms, RouteManifest.load manifestFiles e.1 = .ok e.2) ∧ RouteManifest.gather ms = .ok d ∧
      (o.document d).2 = .ok doc ∧ doc.Renders (ms.flatMap fun e => e.2.operations) ∧
      [("/items", Method.post), ("/users", .get)].map (fun route =>
          (PathItem.at? doc.paths route.1 route.2).map fun object =>
            (Entries.keys object.responses, object.security)) =
        [some (["200", "404", "500"], some []), some (["200", "400", "500"], some [[("key", [])]])] := by
  intro o
  have hwritten : ((RouteManifest.discoverAll manifestFiles o.input).toOption.bind fun d =>
      (o.document d).2.toOption.map fun doc => [("/items", Method.post), ("/users", .get)].map fun route =>
        (PathItem.at? doc.paths route.1 route.2).map fun object =>
          (Entries.keys object.responses, object.security)) =
      some [some (["200", "404", "500"], some []), some (["200", "400", "500"], some [[("key", [])]])] := by
    rw [RouteManifest.discoverAll_of_paths paths_manifestFiles]
    decide +kernel
  cases hd : RouteManifest.discoverAll manifestFiles o.input with
  | error e =>
    rw [hd] at hwritten
    nomatch hwritten
  | ok d =>
    rw [hd, Except.toOption, Option.bind_some] at hwritten
    cases hdoc : (o.document d).2 with
    | error e =>
      rw [hdoc] at hwritten
      nomatch hwritten
    | ok doc =>
      rw [hdoc] at hwritten
      obtain ⟨ms, hpaths, hload, hgather⟩ := (renders_of_document o).2 manifestFiles d hd
      exact ⟨ms, d, doc, rfl, hpaths, hload, hgather, hdoc,
        (renders_of_document o).1 ms d doc hgather hdoc, Option.some.inj hwritten⟩

end GenerateOptions

end ApiDescription

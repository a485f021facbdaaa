import DealFlow360.Lib.Machine
import DealFlow360.Lib.Program
import DealFlow360.Search.Providers

/-!
# What others leave of a search

An actor's searches are compared in two runs: the whole one, and the one
without the calls of others on owner-scoped indexes that do not name the actor.
Both give the same answers as long as such a call does not address what the
actor may see, and the actor's own documents do not take the place of others'.
A provider writes and deletes under whatever key a call names.

`Apart` is the condition on a call: a removed one addresses nothing that the
actor may see, and what the actor may see is not stored over what the actor may
not, in neither run. Three facts carry it:

- `visible_of_query` and `search_congr`: a search depends on what its actor may
  see alone;
- `hidden_of_removed`: what a removed call stores, the actor may not see;
- `visible_index_of_hidden`: but it can take what was under its key from the
  actor's sight.

`search_isolated` is then an induction on the run, over both providers.
Document ids are trimmed, and drawn where they are missing, before anything is
compared.
-/

namespace DealFlow360.Search

variable {κ : Type} [DecidableEq κ] {service : SearchService κ} {u : Id}

/-! ## Two runs -/

namespace SearchService

variable (service : SearchService κ) (u : Id)

def ownerScoped (index : String) : Bool :=
  match service.get index with
  | .ok definition => definition.ownerScoped
  | .error _ => false

/-- The actor may see the document. -/
def Visible (record : StoredSearchDocument) : Bool :=
  !service.ownerScoped record.indexName || decide (record.ownerId = none ∨ record.ownerId = some u)

/-- An index or delete call of another on an owner-scoped index that does not name the actor. -/
def Removed : SearchCall → Bool
  | .index input actor _ _ =>
      decide (actor.id ≠ u) && service.ownerScoped input.index && decide (input.ownerId ≠ some u)
  | .delete index _ actor => decide (actor.id ≠ u) && service.ownerScoped index
  | .search _ => false

/-- The documents after the whole run, and after the run without the removed calls. -/
def pairStep (documents : List StoredSearchDocument × List StoredSearchDocument) (call : SearchCall) :
    List StoredSearchDocument × List StoredSearchDocument :=
  (service.step documents.1 call, if service.Removed u call then documents.2 else service.step documents.2 call)

/-- A search of the actor's answers the same. -/
def Unaffected (documents : List StoredSearchDocument × List StoredSearchDocument) (call : SearchCall) : Prop :=
  ∀ input, call = .search input → input.actor.id = u →
    service.search documents.1 input = service.search documents.2 input

/-- Everything under the key is the actor's to see. -/
def Seen (documents : List StoredSearchDocument) (key : κ) : Prop :=
  ∀ record ∈ Table.lookup service.documentKey key documents, service.Visible u record = true

/-- Nothing under the key is. -/
def Hidden (documents : List StoredSearchDocument) (key : κ) : Prop :=
  ∀ record ∈ Table.lookup service.documentKey key documents, service.Visible u record = false

/-- A removed call addresses nothing that the actor may see, and what the actor may see is not stored over what the
actor may not, in neither run. -/
def Apart (documents : List StoredSearchDocument × List StoredSearchDocument) : SearchCall → Prop
  | .index input actor drawn now =>
      ∀ document ∈ (service.stored input actor drawn now).toOption,
        if service.Removed u (.index input actor drawn now) then
          service.Hidden u documents.1 (service.documentKey document)
        else service.Visible u document = true →
          service.Seen u documents.1 (service.documentKey document) ∧
            service.Seen u documents.2 (service.documentKey document)
  | .delete index documentId actor =>
      (service.deletes index actor).toOption.isSome = true →
        service.Removed u (.delete index documentId actor) = true →
          service.Hidden u documents.1 (service.provider.key index documentId)
  | .search _ => True

instance (documents : List StoredSearchDocument) (key : κ) : Decidable (service.Seen u documents key) :=
  inferInstanceAs (Decidable (∀ record ∈ _, _))

instance (documents : List StoredSearchDocument) (key : κ) : Decidable (service.Hidden u documents key) :=
  inferInstanceAs (Decidable (∀ record ∈ _, _))

instance (documents : List StoredSearchDocument × List StoredSearchDocument) :
    ∀ call, Decidable (service.Apart u documents call)
  | .index _ _ _ _ => inferInstanceAs (Decidable (∀ document ∈ _, ite _ _ _))
  | .delete _ _ _ => inferInstanceAs (Decidable (_ → _ → _))
  | .search _ => .isTrue trivial

/-- The actor sees the same documents in the same order. -/
structure Same (documents : List StoredSearchDocument × List StoredSearchDocument) : Prop where
  first : Table.Distinct service.documentKey documents.1
  second : Table.Distinct service.documentKey documents.2
  visible : documents.1.filter (service.Visible u) = documents.2.filter (service.Visible u)

end SearchService

/-! ## What a query reads -/

theorem get_name {name : String} {definition : SearchIndexDefinition} (h : service.get name = .ok definition) :
    definition.name = name := by
  unfold SearchService.get at h
  split at h
  · cases h
  · rename_i found hfound
    cases h
    simpa using List.find?_some hfound

theorem ownerScoped_of_get {name : String} {definition : SearchIndexDefinition}
    (h : service.get name = .ok definition) : service.ownerScoped name = definition.ownerScoped := by
  unfold SearchService.ownerScoped
  rw [h]

theorem get_of_resolved {requested : Option (List String)} {actor : SearchActor}
    {indexes : List SearchIndexDefinition} (h : service.resolveIndexes requested actor = .ok indexes) :
    ∀ definition ∈ indexes, service.get definition.name = .ok definition := by
  intro definition hdefinition
  unfold SearchService.resolveIndexes at h
  dsimp only at h
  split at h
  · cases h
  · obtain ⟨found, hfound, h⟩ := Program.except_bind_eq_ok.mp h
    split at h
    · cases h
    · obtain rfl := Except.ok.inj h
      obtain ⟨name, -, hget⟩ := Program.except_mem_of_mapM hfound definition (List.mem_filter.mp hdefinition).1
      rw [get_name hget]
      exact hget

/-- A query is for indexes of the registry, apart into shared and owner-scoped ones, and for its actor. -/
theorem visible_of_query {input : SearchQueryInput} {query : ProviderSearchQuery}
    (h : service.providerQuery input = .ok query) {record : StoredSearchDocument}
    (hindex : query.indexes.contains record.indexName = true) (hvisible : visibleToActor record query = true) :
    service.Visible input.actor.id record = true := by
  unfold SearchService.providerQuery at h
  obtain ⟨-, -, h⟩ := Program.except_bind_eq_ok.mp h
  obtain ⟨indexes, hindexes, h⟩ := Program.except_bind_eq_ok.mp h
  obtain ⟨filters, -, h⟩ := Program.except_bind_eq_ok.mp h
  obtain ⟨sort, -, h⟩ := Program.except_bind_eq_ok.mp h
  obtain rfl := Except.ok.inj h
  have hget := get_of_resolved hindexes
  obtain ⟨definition, hdefinition, hname⟩ := List.mem_map.mp (List.contains_iff_mem.mp hindex)
  have hfound := hget definition hdefinition
  rw [hname] at hfound
  unfold SearchService.Visible
  rw [ownerScoped_of_get hfound]
  cases hscoped : definition.ownerScoped with
  | false => rfl
  | true =>
      unfold visibleToActor at hvisible
      rw [Bool.or_eq_true, Bool.or_eq_true] at hvisible
      rcases hvisible with (hshared | hunscoped) | howner
      · obtain ⟨shared, hmem, hsame⟩ := List.mem_map.mp (List.contains_iff_mem.mp hshared)
        obtain ⟨hindexed, hnot⟩ := List.mem_filter.mp hmem
        have hother := hget shared hindexed
        rw [hsame, hfound] at hother
        obtain rfl := Except.ok.inj hother
        rw [hscoped] at hnot
        cases hnot
      · have hmem : record.indexName ∈
            (indexes.filter fun index => index.ownerScoped).map SearchIndexDefinition.name :=
          List.mem_map.mpr ⟨definition, List.mem_filter.mpr ⟨hdefinition, hscoped⟩, hname⟩
        rw [Bool.not_eq_true', ← Bool.not_eq_true] at hunscoped
        exact absurd (List.contains_iff_mem.mpr hmem) hunscoped
      · exact howner

theorem find_congr {query : ProviderSearchQuery} {documents others : List StoredSearchDocument}
    (hquery : ∀ record : StoredSearchDocument, query.indexes.contains record.indexName = true →
      visibleToActor record query = true → service.Visible u record = true)
    (hsame : documents.filter (service.Visible u) = others.filter (service.Visible u)) :
    service.find documents query = service.find others query := by
  have hfilter : ∀ l : List StoredSearchDocument,
      l.filter (fun record => query.indexes.contains record.indexName && visibleToActor record query) =
        (l.filter (service.Visible u)).filter
          fun record => query.indexes.contains record.indexName && visibleToActor record query := by
    intro l
    rw [List.filter_filter]
    refine List.filter_congr fun record _ => ?_
    cases hmatch : query.indexes.contains record.indexName && visibleToActor record query with
    | false => rfl
    | true =>
        obtain ⟨hindex, hvisible⟩ := Bool.and_eq_true_iff.mp hmatch
        rw [hquery record hindex hvisible]
        rfl
  unfold SearchService.find
  rw [hfilter documents, hfilter others, hsame]

/-- A search depends on what its actor may see alone. -/
theorem search_congr {input : SearchQueryInput} {documents others : List StoredSearchDocument}
    (hsame : documents.filter (service.Visible input.actor.id) = others.filter (service.Visible input.actor.id)) :
    service.search documents input = service.search others input := by
  unfold SearchService.search
  cases hquery : service.providerQuery input with
  | error error => rfl
  | ok query =>
      have hresult := find_congr (fun record => visible_of_query hquery) hsame
      have hfuzzy : service.find documents { query with mode := .fuzzy } =
          service.find others { query with mode := .fuzzy } :=
        find_congr (fun record => visible_of_query hquery) hsame
      show Except.bind (.ok query) _ = Except.bind (.ok query) _
      simp only [Except.bind, hresult, hfuzzy]

/-! ## What a call leaves -/

variable {documents : List StoredSearchDocument × List StoredSearchDocument}

theorem stored_ok {input : SearchDocumentInput} {actor : SearchActor} {drawn : DrawnIds} {now : Timestamp}
    {document : StoredSearchDocument} (h : service.stored input actor drawn now = .ok document) :
    document.indexName = input.index ∧
      document.ownerId = if service.ownerScoped input.index then some (input.ownerId.getD actor.id)
        else input.ownerId := by
  unfold SearchService.stored at h
  obtain ⟨-, -, h⟩ := Program.except_bind_eq_ok.mp h
  obtain ⟨definition, hget, h⟩ := Program.except_bind_eq_ok.mp h
  obtain ⟨-, -, h⟩ := Program.except_bind_eq_ok.mp h
  unfold SearchService.toStoredDocument at h
  dsimp only at h
  split at h
  · cases h
  · obtain rfl := Except.ok.inj h
    refine ⟨get_name hget, ?_⟩
    rw [ownerScoped_of_get hget]

/-- What a removed call stores the actor may not see. -/
theorem hidden_of_removed {input : SearchDocumentInput} {actor : SearchActor} {drawn : DrawnIds} {now : Timestamp}
    {document : StoredSearchDocument} (h : service.stored input actor drawn now = .ok document)
    (hremoved : service.Removed u (.index input actor drawn now) = true) :
    service.Visible u document = false := by
  obtain ⟨hindex, howner⟩ := stored_ok h
  unfold SearchService.Removed at hremoved
  rw [Bool.and_eq_true, Bool.and_eq_true, decide_eq_true_iff, decide_eq_true_iff] at hremoved
  obtain ⟨⟨hactor, hscoped⟩, hnamed⟩ := hremoved
  unfold SearchService.Visible
  rw [hindex, hscoped, howner, if_pos hscoped, Bool.not_true, Bool.false_or, decide_eq_false_iff_not]
  rintro (hnone | hsome)
  · cases hnone
  · cases howns : input.ownerId with
    | none =>
        rw [howns] at hsome
        exact hactor (Option.some.inj hsome)
    | some owner =>
        rw [howns] at hsome hnamed
        exact hnamed hsome

theorem key_write (old : Option StoredSearchDocument) (document : StoredSearchDocument) :
    service.documentKey (service.provider.write old document) = service.documentKey document := by
  obtain ⟨hindex, hid, -⟩ := service.provider.write_keeps old document
  unfold SearchService.documentKey
  rw [hindex, hid]

theorem visible_write (old : Option StoredSearchDocument) (document : StoredSearchDocument) :
    service.Visible u (service.provider.write old document) = service.Visible u document := by
  obtain ⟨hindex, -, howner⟩ := service.provider.write_keeps old document
  unfold SearchService.Visible
  rw [hindex, howner]

theorem distinct_index {l : List StoredSearchDocument} (hl : Table.Distinct service.documentKey l)
    (document : StoredSearchDocument) : Table.Distinct service.documentKey (service.index l document) :=
  Table.distinct_upsert hl _

/-- Storing what the actor may not see takes what was under the key from the actor's sight. -/
theorem visible_index_of_hidden {l : List StoredSearchDocument} (hl : Table.Distinct service.documentKey l)
    {document : StoredSearchDocument} (hdocument : service.Visible u document = false) :
    (service.index l document).filter (service.Visible u) =
      Table.erase service.documentKey (service.documentKey document) (l.filter (service.Visible u)) := by
  unfold SearchService.index
  rw [Table.filter_upsert_of_neg hl ((visible_write _ _).trans hdocument), key_write]

theorem erase_of_hidden {l : List StoredSearchDocument} (hl : Table.Distinct service.documentKey l) {key : κ}
    (hhidden : service.Hidden u l key) :
    Table.erase service.documentKey key (l.filter (service.Visible u)) = l.filter (service.Visible u) := by
  refine Table.erase_eq_self fun record hrecord hkey => ?_
  obtain ⟨hmem, hvisible⟩ := List.mem_filter.mp hrecord
  have hlookup := Table.lookup_of_mem hl hmem
  rw [hkey] at hlookup
  have hnot := hhidden record hlookup
  rw [hvisible] at hnot
  cases hnot

theorem same_index {document : StoredSearchDocument} (hs : service.Same u documents)
    (hseen : service.Visible u document = true →
      service.Seen u documents.1 (service.documentKey document) ∧
        service.Seen u documents.2 (service.documentKey document)) :
    service.Same u (service.index documents.1 document, service.index documents.2 document) := by
  refine ⟨distinct_index hs.first document, distinct_index hs.second document, ?_⟩
  cases hvisible : service.Visible u document with
  | false => rw [visible_index_of_hidden hs.first hvisible, visible_index_of_hidden hs.second hvisible, hs.visible]
  | true =>
      obtain ⟨hfirst, hsecond⟩ := hseen hvisible
      have hlookup : Table.lookup service.documentKey (service.documentKey document) documents.1 =
          Table.lookup service.documentKey (service.documentKey document) documents.2 := by
        rw [← Table.lookup_filter hs.first hfirst, ← Table.lookup_filter hs.second hsecond, hs.visible]
      have hwrite := fun old => (visible_write (u := u) old document).trans hvisible
      unfold SearchService.index
      rw [Table.filter_upsert_of_pos (hwrite _), Table.filter_upsert_of_pos (hwrite _), hs.visible, hlookup]
      · rw [key_write]
        exact hsecond
      · rw [key_write]
        exact hfirst

theorem same_step (hs : service.Same u documents) (call : SearchCall) (hapart : service.Apart u documents call) :
    service.Same u (service.pairStep u documents call) := by
  unfold SearchService.pairStep
  cases call with
  | index input actor drawn now =>
      unfold SearchService.step
      dsimp only
      cases hstored : service.stored input actor drawn now with
      | error error =>
          rw [ite_self]
          exact hs
      | ok document =>
          have hcondition := hapart document (by rw [hstored]; rfl)
          by_cases hremoved : service.Removed u (.index input actor drawn now) = true
          · rw [if_pos hremoved] at hcondition ⊢
            refine ⟨distinct_index hs.first document, hs.second, ?_⟩
            show (service.index documents.1 document).filter _ = _
            rw [visible_index_of_hidden hs.first (hidden_of_removed hstored hremoved),
              erase_of_hidden hs.first hcondition, hs.visible]
          · rw [if_neg hremoved] at hcondition ⊢
            exact same_index hs hcondition
  | delete index documentId actor =>
      unfold SearchService.step
      dsimp only
      cases hdeletes : service.deletes index actor with
      | error error =>
          rw [ite_self]
          exact hs
      | ok done =>
          have hfirst := Table.distinct_erase hs.first (service.provider.key index documentId)
          have hsecond := Table.distinct_erase hs.second (service.provider.key index documentId)
          by_cases hremoved : service.Removed u (.delete index documentId actor) = true
          · rw [if_pos hremoved]
            refine ⟨hfirst, hs.second, ?_⟩
            show (Table.erase _ _ documents.1).filter _ = _
            rw [Table.filter_erase, erase_of_hidden hs.first (hapart (by rw [hdeletes]; rfl) hremoved), hs.visible]
          · rw [if_neg hremoved]
            refine ⟨hfirst, hsecond, ?_⟩
            show (Table.erase _ _ documents.1).filter _ = (Table.erase _ _ documents.2).filter _
            rw [Table.filter_erase, Table.filter_erase, hs.visible]
  | search input =>
      unfold SearchService.step
      rw [ite_self]
      exact hs

theorem unaffected_of_same (hs : service.Same u documents) (call : SearchCall) :
    service.Unaffected u documents call := by
  rintro input rfl rfl
  exact search_congr hs.visible

/-- As long as the calls stay apart, every search of the actor's answers as it does without the calls of others. -/
theorem search_isolated (service : SearchService κ) (u : Id) (calls : List SearchCall)
    (hapart : Machine.Meets (service.pairStep u) (service.Apart u) ([], []) calls) :
    Machine.Meets (service.pairStep u) (service.Unaffected u) ([], []) calls :=
  Machine.meets_of_invariant
    (fun _ call hs hcall => ⟨same_step hs call hcall, unaffected_of_same hs call⟩)
    ⟨List.nodup_nil, List.nodup_nil, rfl⟩ hapart

/-! ## Notes of two actors -/

def notesService : SearchService String where
  provider := memorySearchProvider
    { toLowerCase := fun content => content
      scoreRecord := fun _ _ => 0
      highlightSnippets := fun _ _ => none
      collapse := fun content => some content
      greater := fun _ _ => false }
  registry := [{ name := "notes", permission := "search.use", ownerScoped := true, httpWritable := true, fields := [] }]
  tokenizeQuery _ := []
  resolveMode _ _ _ := .browse
  shouldAttemptFuzzy _ _ := false

def notesActor (id : Id) : SearchActor where
  id := id
  permissions := ["search.use"]

def note (documentId : String) (actor : Id) : SearchCall :=
  .index { index := "notes", documentId := some documentId, title := some "Note" } (notesActor actor)
    { id := 0, documentId := "0" } 0

theorem notes_isolated :
    Machine.Meets (notesService.pairStep 1) (notesService.Unaffected 1) ([], [])
      [note "b" 2, note "a" 1, .delete "notes" "b" (notesActor 2), .search { actor := notesActor 1 }] :=
  search_isolated notesService 1 _ (by decide)

/-- Another actor deletes the note. -/
theorem note_deleted :
    ¬ Machine.Meets (notesService.pairStep 1) (notesService.Unaffected 1) ([], [])
      [note "a" 1, .delete "notes" "a" (notesActor 2), .search { actor := notesActor 1 }] := by
  rintro ⟨-, -, hsearch, -⟩
  have hsame := hsearch { actor := notesActor 1 } rfl rfl
  revert hsame
  decide

end DealFlow360.Search

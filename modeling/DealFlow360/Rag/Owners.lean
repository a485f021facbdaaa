import DealFlow360.Rag.RagService

/-!
# Whose documents they are

A document is read and deleted by its owner only, and a search finds what its
user indexed. An index call stores its document under the id it names, whoever
the document under that id belongs to.

What the service needs of a store is a structure, and both stores are shown to
satisfy it; the isolation is proved once, over that. `indexNow_cases` is the
one step that can write over another's document; reading, deleting and
searching are the owner's alone (`answers`).

`rag_documents_isolated_iff` is exact over runs: documents stay with their
owners throughout if and only if nothing is indexed under an id that somebody
else's document has. `shared_id_taken` is two users with one id.
-/

namespace DealFlow360.Rag

/-! ## The two stores -/

section Stores

variable {ε : Type}

namespace MemoryVectorStore

variable {store : MemoryVectorStore ε}

theorem distinct_deleteDocument (hs : Table.Distinct documentId store.documents) {id : String}
    {after : MemoryVectorStore ε} (h : store.deleteDocument id = some after) :
    after = { documents := Table.erase documentId id store.documents } ∧
      Table.Distinct documentId after.documents := by
  unfold deleteDocument at h
  split at h
  · cases h
  · cases h
    exact ⟨rfl, Table.distinct_erase hs id⟩

end MemoryVectorStore

/-- `createMemoryVectorStore`. -/
def memoryVectorStore {σ : Type} [LinearOrder σ] (similarity : ε → ε → σ) : VectorStore ε σ where
  State := { store : MemoryVectorStore ε // Table.Distinct MemoryVectorStore.documentId store.documents }
  empty := ⟨{}, List.nodup_nil⟩
  upsertDocument store input := ⟨store.val.upsertDocument input, Table.distinct_upsert store.property _⟩
  deleteDocument store id :=
    match h : store.val.deleteDocument id with
    | none => none
    | some after => some ⟨after, (MemoryVectorStore.distinct_deleteDocument store.property h).2⟩
  getDocument store id := store.val.getDocument id
  query store := store.val.query similarity
  contents store id :=
    (Table.lookup MemoryVectorStore.documentId id store.val.documents).map fun document =>
      (document.toIndexedDocumentMeta, document.chunks)
  contents_empty _ := rfl
  contents_upsert store input _ id := by
    show (Table.lookup _ id (Table.upsert _ input.document _)).map _ = _
    rw [Table.lookup_upsert]
    by_cases hid : input.documentId = id
    · have hsame : MemoryVectorStore.documentId input.document = id := hid
      rw [if_pos hid, if_pos hsame]
      rfl
    · have hother : MemoryVectorStore.documentId input.document ≠ id := hid
      rw [if_neg hid, if_neg hother]
  deleted store id after h other := by
    split at h
    · cases h
    · rename_i after' hdeleted
      cases h
      have herased := (MemoryVectorStore.distinct_deleteDocument store.property hdeleted).1
      show (Table.lookup _ other after'.documents).map _ = _
      rw [herased, Table.lookup_erase]
      split <;> rfl
  getDocument_eq store id := by
    unfold MemoryVectorStore.getDocument
    rw [Option.map_map]
    rfl
  query_own store embedding options owner howner chunk hchunk := by
    have hscored := Top.mem_ranked.mp (List.mem_of_mem_take hchunk)
    obtain ⟨document, hdocument, hfound⟩ := List.mem_flatMap.mp hscored
    obtain ⟨hmem, hselects⟩ := List.mem_filter.mp hdocument
    obtain ⟨stored, hstored, rfl⟩ := List.mem_map.mp (List.mem_filter.mp hfound).1
    unfold MemoryVectorStore.selects at hselects
    rw [Bool.and_eq_true, howner, Option.all_some, decide_eq_true_iff] at hselects
    refine ⟨document.documentId, document.toIndexedDocumentMeta, document.chunks, ?_, hselects.2, hstored⟩
    have hlookup := Table.lookup_of_mem store.property hmem
    exact congrArg (Option.map fun document => (document.toIndexedDocumentMeta, document.chunks)) hlookup

namespace RagTables

/-- The rows of a document, as they were stored. -/
def chunksOf (tables : RagTables ε) (id : String) : List (StoredChunk ε) :=
  (tables.ragChunk.filter fun row => row.documentId = id).map toStoredChunk

def contents (tables : RagTables ε) (id : String) : Option (IndexedDocumentMeta × List (StoredChunk ε)) :=
  (tables.getDocument id).map fun found => (found, tables.chunksOf id)

theorem chunksOf_writeDocument (tables : RagTables ε) (input : UpsertDocumentInput ε) (id : String) :
    (tables.writeDocument input).chunksOf id =
      if input.documentId = id then input.chunks else tables.chunksOf id := by
  unfold chunksOf writeDocument
  rw [List.filter_append, List.filter_filter]
  by_cases hid : input.documentId = id
  · subst hid
    have hold : tables.ragChunk.filter (fun row => decide (row.documentId = input.documentId) &&
        decide (row.documentId ≠ input.documentId)) = [] := by
      refine List.filter_eq_nil_iff.mpr fun row _ => ?_
      by_cases h : row.documentId = input.documentId <;> simp [h]
    have hnew : (input.chunks.map RagChunkRow.ofChunk).filter (fun row => row.documentId = input.documentId) =
        input.chunks.map RagChunkRow.ofChunk := by
      refine List.filter_eq_self.mpr fun row hrow => ?_
      obtain ⟨chunk, hchunk, rfl⟩ := List.mem_map.mp hrow
      exact decide_eq_true (input.own chunk hchunk)
    rw [hold, hnew, List.nil_append, if_pos rfl, List.map_map]
    exact List.map_id _
  · have hold : tables.ragChunk.filter (fun row => decide (row.documentId = id) &&
        decide (row.documentId ≠ input.documentId)) = tables.ragChunk.filter fun row => row.documentId = id := by
      refine List.filter_congr fun row _ => ?_
      by_cases h : row.documentId = id
      · simp [h, Ne.symm hid]
      · simp [h]
    have hnew : (input.chunks.map RagChunkRow.ofChunk).filter (fun row => row.documentId = id) = [] := by
      refine List.filter_eq_nil_iff.mpr fun row hrow => ?_
      obtain ⟨chunk, hchunk, rfl⟩ := List.mem_map.mp hrow
      have hown : (RagChunkRow.ofChunk chunk).documentId = input.documentId := input.own chunk hchunk
      simpa [hown] using hid
    rw [hold, hnew, List.append_nil, if_neg hid]

theorem chunksOf_filter (tables : RagTables ε) (id other : String) (rows : List RagDocumentRow) (hne : id ≠ other) :
    ({ ragDocument := rows, ragChunk := tables.ragChunk.filter fun row => row.documentId ≠ id } :
      RagTables ε).chunksOf other = tables.chunksOf other := by
  unfold chunksOf
  rw [List.filter_filter]
  congr 1
  refine List.filter_congr fun row _ => ?_
  by_cases h : row.documentId = other
  · simp [h, Ne.symm hne]
  · simp [h]

end RagTables

/-- `createPostgresVectorStore`. -/
def postgresVectorStore {σ κ : Type} [LinearOrder σ] [LinearOrder κ] (collate : String ↪ κ)
    (similarity : ε → ε → σ) : VectorStore ε σ where
  State := RagTables ε
  empty := {}
  upsertDocument := RagTables.writeDocument
  deleteDocument := RagTables.deleteDocument
  getDocument := RagTables.getDocument
  query tables := tables.query collate maxScanChunks similarity
  contents := RagTables.contents
  contents_empty _ := rfl
  contents_upsert tables input hcreated id := by
    unfold RagTables.contents
    rw [RagTables.chunksOf_writeDocument]
    show ((Table.lookup _ id (Table.upsert _ _ _)).map _).map _ = _
    rw [Table.lookup_upsert]
    by_cases hid : input.documentId = id
    · have hsame : (input.row (input.createdBy <|> tables.createdBy input.documentId)).id = id := hid
      obtain ⟨owner, howner⟩ := Option.ne_none_iff_exists'.mp hcreated
      rw [if_pos hid, if_pos hid, if_pos hsame, howner]
      unfold UpsertDocumentInput.document
      rw [howner]
      rfl
    · have hother : (input.row (input.createdBy <|> tables.createdBy input.documentId)).id ≠ id := hid
      rw [if_neg hid, if_neg hid, if_neg hother]
      rfl
  deleted tables id after h other := by
    unfold RagTables.deleteDocument at h
    split at h
    · cases h
    · cases h
      by_cases hid : id = other
      · rw [if_pos hid]
        show ((Table.lookup _ other (Table.erase _ id _)).map _).map _ = _
        rw [Table.lookup_erase, if_pos hid]
        rfl
      · rw [if_neg hid]
        unfold RagTables.contents
        rw [RagTables.chunksOf_filter tables id other _ hid]
        show ((Table.lookup _ other (Table.erase _ id _)).map _).map _ = _
        rw [Table.lookup_erase, if_neg hid]
        rfl
  getDocument_eq tables id := by
    unfold RagTables.contents
    rw [Option.map_map]
    exact (Option.map_id' (x := tables.getDocument id)).symm
  query_own tables embedding options owner howner chunk hchunk := by
    have hscored := Top.mem_ranked.mp (List.mem_of_mem_take hchunk)
    obtain ⟨row, hrow, rfl⟩ := List.mem_map.mp (List.mem_filter.mp hscored).1
    obtain ⟨hmem, hselects⟩ := List.mem_filter.mp (Top.mem_ranked.mp (List.mem_of_mem_take hrow))
    unfold RagTables.selects at hselects
    rw [Bool.and_eq_true, howner, Option.all_some, decide_eq_true_iff] at hselects
    obtain ⟨document, hlookup, hcreated⟩ := Option.bind_eq_some_iff.mp hselects.2
    refine ⟨row.documentId, document.indexed, tables.chunksOf row.documentId, ?_, hcreated, ?_⟩
    · unfold RagTables.contents RagTables.getDocument
      rw [hlookup]
      rfl
    · exact List.mem_map_of_mem (List.mem_filter.mpr ⟨hmem, decide_eq_true rfl⟩)

end Stores

/-! ## What isolation is -/

variable {ε σ : Type} {service : RagService ε σ}

namespace RagState

variable (s : RagState service)

def contents (id : String) : Option (IndexedDocumentMeta × List (StoredChunk ε)) :=
  service.store.contents s.documents id

/-- Whose call a request is. A job is its caller's. -/
def caller : RagRequest σ → Option Id
  | .index userId _ _ _ _ _ _ => some userId
  | .runJob jobId => s.jobs[jobId]?.map IndexInput.userId
  | .getDocument _ userId => some userId
  | .deleteDocument _ userId => some userId
  | .search userId _ _ _ _ _ => some userId

/-- What is read and deleted is the caller's, and what is found the caller has indexed. -/
def Answers : RagRequest σ → RagAnswer σ → Prop
  | .getDocument _ userId, .document found => found.createdBy = some userId
  | .deleteDocument documentId userId, .deleted _ =>
      ∃ found chunks, s.contents documentId = some (found, chunks) ∧ found.createdBy = some userId
  | .search userId _ _ _ _ _, .found chunks =>
      ∀ chunk ∈ chunks, ∃ stored score, (userId, stored) ∈ s.indexed ∧ stored.retrieved score = chunk
  | _, _ => True

/-- A stored document changes by a call of its owner only, and the answer is the caller's. -/
structure Isolated (request : RagRequest σ) : Prop where
  changes : ∀ id found chunks, s.contents id = some (found, chunks) →
    (service.step s request).contents id ≠ some (found, chunks) → s.caller request = found.createdBy
  answers : s.Answers request (service.serve s request).2

/-- What a request or a job indexes at once. -/
def indexes : RagRequest σ → Option IndexInput
  | .index userId documentId randomUUID source text metadata async =>
      if service.notReady = none ∧ ¬ service.shouldQueue text async then
        some { documentId := documentId.getD randomUUID, source, text, metadata, userId }
      else none
  | .runJob jobId => s.jobs[jobId]?
  | .getDocument _ _ | .deleteDocument _ _ | .search _ _ _ _ _ _ => none

/-- What is indexed under the id of a stored document is its owner's. -/
def Permitted (request : RagRequest σ) : Prop :=
  ∀ input ∈ s.indexes request, ∀ upsert, service.prepare input = .ok upsert →
    ∀ found chunks, s.contents input.documentId = some (found, chunks) → found.createdBy = some input.userId

/-- Every stored document has an owner, who indexed its chunks. -/
def Known : Prop :=
  ∀ id found chunks, s.contents id = some (found, chunks) →
    ∃ owner, found.createdBy = some owner ∧ ∀ chunk ∈ chunks, (owner, chunk) ∈ s.indexed

end RagState

/-! ## What a call leaves -/

variable {s : RagState service}

theorem known_start : (RagState.start service).Known := by
  intro id found chunks h
  have hnone := service.store.contents_empty id
  cases hnone.symm.trans h

theorem prepare_ok {input : IndexInput} {upsert : UpsertDocumentInput ε} (h : service.prepare input = .ok upsert) :
    upsert.documentId = input.documentId ∧ upsert.createdBy = some input.userId ∧
      (codeUnits input.text).length ≤ service.maxDocumentChars := by
  unfold RagService.prepare at h
  split at h
  · cases h
  · rename_i hsize
    split at h
    · cases h
    · split at h
      · cases h
      · cases h
        exact ⟨rfl, rfl, not_lt.mp hsize⟩

/-- Nothing changes, or the document is stored under its id. -/
theorem indexNow_cases (s : RagState service) (input : IndexInput) :
    (service.indexNow s input).1 = s ∧ (∀ upsert, service.prepare input ≠ .ok upsert) ∨
      ∃ upsert, service.prepare input = .ok upsert ∧
        (service.indexNow s input).1.indexed =
          s.indexed ++ upsert.chunks.map (fun chunk => (input.userId, chunk)) ∧
        ∀ id, (service.indexNow s input).1.contents id =
          if input.documentId = id then some (upsert.document.toIndexedDocumentMeta, upsert.chunks)
          else s.contents id := by
  unfold RagService.indexNow
  cases hprepare : service.prepare input with
  | error error => exact .inl ⟨rfl, nofun⟩
  | ok upsert =>
      obtain ⟨hid, howner, -⟩ := prepare_ok hprepare
      refine .inr ⟨upsert, rfl, rfl, fun id => ?_⟩
      have hcontents := service.store.contents_upsert s.documents upsert (by rw [howner]; nofun) id
      rw [hid] at hcontents
      exact hcontents

theorem deleteDocument_cases (s : RagState service) (documentId : String) (userId : Id) :
    ((service.deleteDocument s documentId userId).1 = s ∧
        ∃ error, (service.deleteDocument s documentId userId).2 = .failed error) ∨
      ∃ found chunks, s.contents documentId = some (found, chunks) ∧ found.createdBy = some userId ∧
        (service.deleteDocument s documentId userId).1.indexed = s.indexed ∧
        ∀ id, (service.deleteDocument s documentId userId).1.contents id =
          if documentId = id then none else s.contents id := by
  unfold RagService.deleteDocument
  rw [service.store.getDocument_eq]
  cases hcontents : service.store.contents s.documents documentId with
  | none => exact .inl ⟨rfl, _, rfl⟩
  | some stored =>
      obtain ⟨found, chunks⟩ := stored
      dsimp only [Option.map_some]
      by_cases howns : RagService.ownsRagDocument found.createdBy userId = true
      · rw [if_neg (not_not.mpr howns)]
        cases hdelete : service.store.deleteDocument s.documents documentId with
        | none => exact .inl ⟨rfl, _, rfl⟩
        | some documents =>
            refine .inr ⟨found, chunks, hcontents, of_decide_eq_true howns, rfl, fun id => ?_⟩
            exact service.store.deleted _ _ _ hdelete id
      · rw [if_pos howns]
        exact .inl ⟨rfl, _, rfl⟩

theorem whenReady_cases (s : RagState service) (served : RagState service × RagAnswer σ) :
    (service.notReady = none ∧ service.whenReady s served = served) ∨
      (service.notReady ≠ none ∧ ∃ error, service.whenReady s served = (s, .failed error)) := by
  unfold RagService.whenReady
  cases hready : service.notReady with
  | none => exact .inl ⟨rfl, rfl⟩
  | some error => exact .inr ⟨nofun, error, rfl⟩

/-- A step leaves what is stored and what was indexed, indexes now or deletes. -/
inductive Served (s : RagState service) (request : RagRequest σ) : Prop where
  | kept (hcontents : ∀ id, (service.step s request).contents id = s.contents id)
      (hindexed : (service.step s request).indexed = s.indexed)
      (hnothing : ∀ input ∈ s.indexes request, ∀ upsert, service.prepare input ≠ .ok upsert)
  | indexed (input : IndexInput) (upsert : UpsertDocumentInput ε) (hinput : s.indexes request = some input)
      (hprepare : service.prepare input = .ok upsert) (hcaller : s.caller request = some input.userId)
      (hcontents : ∀ id, (service.step s request).contents id =
        if input.documentId = id then some (upsert.document.toIndexedDocumentMeta, upsert.chunks)
        else s.contents id)
      (hindexed : (service.step s request).indexed =
        s.indexed ++ upsert.chunks.map (fun chunk => (input.userId, chunk)))
  | deleted (documentId : String) (userId : Id) (found : IndexedDocumentMeta) (chunks : List (StoredChunk ε))
      (hnothing : s.indexes request = none) (hcaller : s.caller request = some userId)
      (hstored : s.contents documentId = some (found, chunks)) (howner : found.createdBy = some userId)
      (hcontents : ∀ id, (service.step s request).contents id =
        if documentId = id then none else s.contents id)
      (hindexed : (service.step s request).indexed = s.indexed)

theorem served_of_indexNow {request : RagRequest σ} {input : IndexInput}
    (hserve : service.serve s request = service.indexNow s input) (hinput : s.indexes request = some input)
    (hcaller : s.caller request = some input.userId) : Served s request := by
  have hstep : service.step s request = (service.indexNow s input).1 := congrArg Prod.fst hserve
  rcases indexNow_cases s input with ⟨hsame, hnothing⟩ | ⟨upsert, hprepare, hindexed, hcontents⟩
  · refine .kept (fun id => by rw [hstep, hsame]) (by rw [hstep, hsame]) fun other hother => ?_
    cases hinput.symm.trans hother
    exact hnothing
  · refine .indexed input upsert hinput hprepare hcaller (fun id => ?_) ?_
    · rw [hstep]
      exact hcontents id
    · rw [hstep]
      exact hindexed

theorem served_of_read {request : RagRequest σ} (hstep : service.step s request = s)
    (hnothing : ∀ input ∈ s.indexes request, ∀ upsert, service.prepare input ≠ .ok upsert) : Served s request :=
  .kept (fun id => by rw [hstep]) (by rw [hstep]) hnothing

theorem served_index (s : RagState service) (userId : Id) (documentId : Option String)
    (randomUUID source text : String) (metadata : RagChunkMetadata) (async : Option Bool) :
    Served s (.index userId documentId randomUUID source text metadata async) := by
  let request : RagRequest σ := .index userId documentId randomUUID source text metadata async
  let input : IndexInput := { documentId := documentId.getD randomUUID, source, text, metadata, userId }
  have hindexes : s.indexes request =
      if service.notReady = none ∧ ¬ service.shouldQueue text async then some input else none := rfl
  rcases whenReady_cases s (service.index s input async) with ⟨hready, hserved⟩ | ⟨hready, error, hserved⟩
  · have hserve : service.serve s request = service.index s input async := hserved
    unfold RagService.index at hserve
    by_cases hlarge : (codeUnits input.text).length > service.maxDocumentChars
    · rw [if_pos hlarge] at hserve
      refine served_of_read (congrArg Prod.fst hserve) fun other hother upsert hprepare => ?_
      rw [hindexes] at hother
      split at hother
      · cases hother
        exact absurd (prepare_ok hprepare).2.2 (not_le.mpr hlarge)
      · cases hother
    · rw [if_neg hlarge] at hserve
      by_cases hqueue : service.shouldQueue input.text async = true
      · have hnothing : s.indexes request = none := by
          rw [hindexes, if_neg]
          exact fun h => h.2 hqueue
        rw [if_pos hqueue] at hserve
        have hkept : ∀ other ∈ s.indexes request, ∀ upsert, service.prepare other ≠ .ok upsert := by
          intro other hother
          cases hnothing.symm.trans hother
        split at hserve
        · exact served_of_read (congrArg Prod.fst hserve) hkept
        · have hstep : service.step s request = { s with jobs := s.jobs ++ [input] } := congrArg Prod.fst hserve
          refine .kept (fun id => ?_) ?_ hkept
          · show (service.step s request).contents id = _
            rw [hstep]
            rfl
          · show (service.step s request).indexed = _
            rw [hstep]
      · rw [if_neg hqueue] at hserve
        refine served_of_indexNow hserve ?_ rfl
        rw [hindexes, if_pos ⟨hready, hqueue⟩]
  · have hserve : service.serve s request = (s, .failed error) := hserved
    refine served_of_read (congrArg Prod.fst hserve) fun other hother => ?_
    rw [hindexes, if_neg fun h => hready h.1] at hother
    cases hother

theorem served (s : RagState service) (request : RagRequest σ) : Served s request := by
  cases request with
  | index userId documentId randomUUID source text metadata async =>
      exact served_index s userId documentId randomUUID source text metadata async
  | runJob jobId =>
      cases hjob : s.jobs[jobId]? with
      | none =>
          have hserve : service.serve s (.runJob jobId) = (s, .noJob) := by
            unfold RagService.serve
            dsimp only
            rw [hjob]
          refine served_of_read (congrArg Prod.fst hserve) fun input hinput => ?_
          cases hjob.symm.trans hinput
      | some input =>
          have hserve : service.serve s (.runJob jobId) = service.indexNow s input := by
            unfold RagService.serve
            dsimp only
            rw [hjob]
          exact served_of_indexNow hserve hjob (congrArg (Option.map IndexInput.userId) hjob)
  | getDocument documentId userId =>
      refine served_of_read ?_ nofun
      rcases whenReady_cases s (s, service.getDocument s documentId userId) with ⟨-, h⟩ | ⟨-, error, h⟩
      · exact congrArg Prod.fst h
      · exact congrArg Prod.fst h
  | deleteDocument documentId userId =>
      rcases whenReady_cases s (service.deleteDocument s documentId userId) with ⟨-, h⟩ | ⟨-, error, h⟩
      · have hstep : service.step s (.deleteDocument documentId userId) =
            (service.deleteDocument s documentId userId).1 := congrArg Prod.fst h
        rcases deleteDocument_cases s documentId userId with
          ⟨hsame, -⟩ | ⟨found, chunks, hstored, howner, hindexed, hcontents⟩
        · exact served_of_read (hstep.trans hsame) nofun
        · refine .deleted documentId userId found chunks rfl rfl hstored howner (fun id => ?_) ?_
          · rw [hstep]
            exact hcontents id
          · rw [hstep]
            exact hindexed
      · exact served_of_read (congrArg Prod.fst h) nofun
  | search userId query topK minScore documentIds nonempty =>
      refine served_of_read ?_ nofun
      rcases whenReady_cases s (s, service.search s userId query topK minScore documentIds nonempty) with
        ⟨-, h⟩ | ⟨-, error, h⟩
      · exact congrArg Prod.fst h
      · exact congrArg Prod.fst h

/-! ## What every state keeps -/

theorem known_step (hs : s.Known) (request : RagRequest σ) : (service.step s request).Known := by
  intro id found chunks hstored
  cases served s request with
  | kept hcontents hindexed hnothing =>
      rw [hcontents] at hstored
      rw [hindexed]
      exact hs id found chunks hstored
  | indexed input upsert hinput hprepare hcaller hcontents hindexed =>
      rw [hcontents] at hstored
      rw [hindexed]
      split at hstored
      · cases hstored
        refine ⟨input.userId, (prepare_ok hprepare).2.1, fun chunk hchunk => ?_⟩
        exact List.mem_append_right _ (List.mem_map_of_mem hchunk)
      · obtain ⟨owner, howner, hchunks⟩ := hs id found chunks hstored
        exact ⟨owner, howner, fun chunk hchunk => List.mem_append_left _ (hchunks chunk hchunk)⟩
  | deleted documentId userId before old hnothing hcaller hold howner hcontents hindexed =>
      rw [hcontents] at hstored
      rw [hindexed]
      split at hstored
      · cases hstored
      · exact hs id found chunks hstored

/-- Reading, deleting and searching is the owner's alone. -/
theorem answers (hs : s.Known) (request : RagRequest σ) : s.Answers request (service.serve s request).2 := by
  cases request with
  | index => trivial
  | runJob => trivial
  | getDocument documentId userId =>
      show s.Answers _ (service.whenReady s (s, service.getDocument s documentId userId)).2
      rcases whenReady_cases s (s, service.getDocument s documentId userId) with ⟨-, h⟩ | ⟨-, error, h⟩
      · rw [h]
        unfold RagService.getDocument
        split
        · trivial
        · split
          · trivial
          · rename_i document _ howns
            have howner : document.createdBy = some userId := of_decide_eq_true (not_not.mp howns)
            exact howner
      · rw [h]
        trivial
  | deleteDocument documentId userId =>
      show s.Answers _ (service.whenReady s (service.deleteDocument s documentId userId)).2
      rcases whenReady_cases s (service.deleteDocument s documentId userId) with ⟨-, h⟩ | ⟨-, error, h⟩
      · rw [h]
        rcases deleteDocument_cases s documentId userId with ⟨-, error, hfailed⟩ | ⟨found, chunks, hstored, howner, -⟩
        · rw [hfailed]
          trivial
        · generalize (service.deleteDocument s documentId userId).2 = answer
          cases answer with
          | deleted => exact ⟨found, chunks, hstored, howner⟩
          | indexed | queued | document | found | noJob | failed => trivial
      · rw [h]
        trivial
  | search userId query topK minScore documentIds nonempty =>
      show s.Answers _ (service.whenReady s (s, service.search s userId query topK minScore documentIds nonempty)).2
      rcases whenReady_cases s (s, service.search s userId query topK minScore documentIds nonempty) with
        ⟨-, h⟩ | ⟨-, error, h⟩
      · rw [h]
        intro chunk hchunk
        obtain ⟨hit, hhit, rfl⟩ := List.mem_map.mp hchunk
        obtain ⟨id, found, chunks, hstored, howner, hmem⟩ := service.store.query_own _ _ _ userId rfl hit hhit
        obtain ⟨owner, hknown, hchunks⟩ := hs id found chunks hstored
        cases howner.symm.trans hknown
        exact ⟨hit.toStoredChunk, hit.score, hchunks _ hmem, rfl⟩
      · rw [h]
        trivial

theorem isolated_iff_permitted (hs : s.Known) (request : RagRequest σ) : s.Isolated request ↔ s.Permitted request := by
  constructor
  · intro hisolated input hinput upsert hprepare found chunks hstored
    cases served s request with
    | kept hcontents hindexed hnothing => exact absurd hprepare (hnothing input hinput upsert)
    | indexed other otherUpsert hother hotherPrepare hcaller hcontents hindexed =>
        cases hinput.symm.trans hother
        cases hprepare.symm.trans hotherPrepare
        by_contra hforeign
        refine hforeign ((hisolated.changes _ found chunks hstored fun hsame => hforeign ?_).symm.trans hcaller)
        rw [hcontents, if_pos rfl] at hsame
        cases hsame
        exact (prepare_ok hprepare).2.1
    | deleted documentId userId before old hnothing => cases hnothing.symm.trans hinput
  · intro hpermitted
    refine ⟨fun id found chunks hstored hchanged => ?_, answers hs request⟩
    cases served s request with
    | kept hcontents hindexed hnothing => exact absurd ((hcontents id).trans hstored) hchanged
    | indexed input upsert hinput hprepare hcaller hcontents hindexed =>
        rw [hcontents] at hchanged
        by_cases hid : input.documentId = id
        · subst hid
          exact hcaller.trans (hpermitted input hinput upsert hprepare found chunks hstored).symm
        · rw [if_neg hid] at hchanged
          exact absurd hstored hchanged
    | deleted documentId userId before old hnothing hcaller hold howner hcontents hindexed =>
        rw [hcontents] at hchanged
        by_cases hid : documentId = id
        · subst hid
          cases hold.symm.trans hstored
          exact hcaller.trans howner.symm
        · rw [if_neg hid] at hchanged
          exact absurd hstored hchanged

/-- Documents stay with their owners throughout a run exactly if nothing is indexed under the id of another's
document. -/
theorem rag_documents_isolated_iff (service : RagService ε σ) (requests : List (RagRequest σ)) :
    Machine.Meets service.step (fun s request => s.Isolated request) (.start service) requests ↔
      Machine.Meets service.step (fun s request => s.Permitted request) (.start service) requests :=
  Machine.meets_congr (fun _ request hs => known_step hs request)
    (fun _ request hs => isolated_iff_permitted hs request) known_start

/-! ## Another's document -/

def lexicalService : RagService ℕ ℕ where
  store := memoryVectorStore fun _ _ => 0
  chunk text := some [text]
  embed _ := 0
  embeddingModel := "lexical"
  suspicious _ := false
  hashText text := text
  maxDocumentChars := 100000
  asyncThresholdChars := 20000
  topK := 5
  minScore := 0
  hasJobs := false

/-- Two users index a document under the same id. -/
def sharedId : List (RagRequest ℕ) :=
  [.index 1 (some "policy") "uuid" "Policy" "ours" [] none, .index 2 (some "policy") "uuid" "Policy" "theirs" [] none]

theorem shared_id_taken :
    ¬ Machine.Meets lexicalService.step (fun s request => s.Isolated request) (.start lexicalService) sharedId := by
  rintro ⟨-, hsecond, -⟩
  have hpermitted := (isolated_iff_permitted (known_step known_start _) _).mp hsecond
  have howner := hpermitted _ rfl _ rfl _ _ rfl
  cases howner

end DealFlow360.Rag

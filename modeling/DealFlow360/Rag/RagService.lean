import DealFlow360.Rag.VectorStores

/-!
# The RAG service

`index`, `getDocument`, `deleteDocument`, `search` and the index job, on either
store. Requests are as their schemas leave them, every one with the user id of
its caller. The chunker, the embeddings, the injection patterns and the hash
are parameters; a queued job may run at any time, and more than once. Audit and
logging are left out.

Indexing chunks the text, looks for injections, embeds and stores; a document
that is the same as the stored one is not stored again. A search embeds its
question, asks the store for the best chunks of its user and assembles the
context. The queue's job is the same call made later, by the worker, with the
payload it was given.
-/

namespace DealFlow360.Rag

/-! ## A store of either kind -/

/-- What the service asks of a store. `contents` is what is stored under an id. -/
structure VectorStore (ε σ : Type) where
  State : Type
  empty : State
  upsertDocument : State → UpsertDocumentInput ε → State
  deleteDocument : State → String → Option State
  getDocument : State → String → Option IndexedDocumentMeta
  query : State → ε → VectorQueryOptions σ → List (ScoredChunk ε σ)
  contents : State → String → Option (IndexedDocumentMeta × List (StoredChunk ε))
  contents_empty : ∀ id, contents empty id = none
  contents_upsert : ∀ s input, input.createdBy ≠ none → ∀ id, contents (upsertDocument s input) id =
    if input.documentId = id then some (input.document.toIndexedDocumentMeta, input.chunks) else contents s id
  deleted : ∀ s id s', deleteDocument s id = some s' → ∀ other, contents s' other =
    if id = other then none else contents s other
  getDocument_eq : ∀ s id, getDocument s id = (contents s id).map Prod.fst
  query_own : ∀ s embedding options owner, options.createdBy = some owner →
    ∀ chunk ∈ query s embedding options, ∃ id found chunks, contents s id = some (found, chunks) ∧
      found.createdBy = some owner ∧ chunk.toStoredChunk ∈ chunks

/-! ## The service -/

inductive RagError where
  | featureDisabled
  | aiNotConfigured
  | jobQueueNotConfigured
  | documentNotFound (documentId : String)
  | documentTooLarge
  | tooManyChunks
  | noChunks
  deriving DecidableEq, Repr

structure RagService (ε σ : Type) where
  store : VectorStore ε σ
  enabled : Bool := true
  aiReady : Bool := true
  /-- The pieces of a text, unless they are too many. -/
  chunk : String → Option (List String)
  embed : String → ε
  embeddingModel : String
  suspicious : String → Bool
  hashText : String → String
  maxDocumentChars : ℕ
  asyncThresholdChars : ℕ
  topK : ℕ
  minScore : σ
  hasJobs : Bool

/-- What is indexed, now or by a job. -/
structure IndexInput where
  documentId : String
  source : String
  text : String
  metadata : RagChunkMetadata
  userId : Id
  deriving DecidableEq, Repr

structure RetrievedChunk (σ : Type) where
  documentId : String
  chunkId : String
  source : String
  content : String
  metadata : RagChunkMetadata
  score : σ
  deriving DecidableEq

variable {ε σ : Type}

def StoredChunk.retrieved (chunk : StoredChunk ε) (score : σ) : RetrievedChunk σ where
  documentId := chunk.documentId
  chunkId := chunk.chunkId
  source := chunk.source
  content := chunk.content
  metadata := chunk.metadata
  score := score

inductive RagAnswer (σ : Type) where
  | indexed (documentId : String) (chunkCount : ℕ)
  | queued (documentId : String) (jobId : ℕ)
  | document (found : IndexedDocumentMeta)
  | deleted (documentId : String)
  | found (chunks : List (RetrievedChunk σ))
  | noJob
  | failed (error : RagError)

structure RagState (service : RagService ε σ) where
  documents : service.store.State
  jobs : List IndexInput
  /-- The chunks that each user indexed. -/
  indexed : List (Id × StoredChunk ε)

def RagState.start (service : RagService ε σ) : RagState service where
  documents := service.store.empty
  jobs := []
  indexed := []

inductive RagRequest (σ : Type) where
  /-- The id is taken where the request names none. -/
  | index (userId : Id) (documentId : Option String) (randomUUID : String) (source text : String)
      (metadata : RagChunkMetadata) (async : Option Bool)
  /-- A worker runs a queued job. -/
  | runJob (jobId : ℕ)
  | getDocument (documentId : String) (userId : Id)
  | deleteDocument (documentId : String) (userId : Id)
  | search (userId : Id) (query : String) (topK : Option ℕ) (minScore : Option σ)
      (documentIds : Option (List String)) (nonempty : documentIds ≠ some [])

namespace RagService

variable (service : RagService ε σ)

/-- `assertReady`. -/
def notReady : Option RagError :=
  if ¬ service.enabled then some .featureDisabled
  else if ¬ service.aiReady then some .aiNotConfigured
  else none

/-- `ownsRagDocument`, for a caller with a user id. -/
def ownsRagDocument (createdBy : Option Id) (userId : Id) : Bool := createdBy = some userId

/-- The chunk of a piece, with its index and the injection mark in its metadata. -/
def storedChunk (input : IndexInput) (content : String) (chunkIndex : ℕ) : StoredChunk ε where
  chunkId := input.documentId ++ ":" ++ padStart (toString chunkIndex) 4 '0'
  documentId := input.documentId
  chunkIndex := chunkIndex
  source := input.source
  content := content
  metadata :=
    let numbered := Table.upsert Prod.fst ("chunkIndex", .number chunkIndex) input.metadata
    if service.suspicious input.text then Table.upsert Prod.fst ("injection", .boolean true) numbered else numbered
  embedding := service.embed content
  embeddingModel := service.embeddingModel

def storedChunks (input : IndexInput) (pieces : List String) : List (StoredChunk ε) :=
  pieces.zipIdx.map fun piece => service.storedChunk input piece.1 piece.2

/-- What `indexNow` stores, or the error it throws. -/
def prepare (input : IndexInput) : Except RagError (UpsertDocumentInput ε) :=
  if (codeUnits input.text).length > service.maxDocumentChars then .error .documentTooLarge
  else
    match service.chunk input.text with
    | none => .error .tooManyChunks
    | some pieces =>
        if pieces = [] then .error .noChunks
        else .ok
          { documentId := input.documentId
            source := input.source
            metadata := input.metadata
            textHash := service.hashText input.text
            chunks := service.storedChunks input pieces
            createdBy := some input.userId
            own := by
              intro chunk hchunk
              obtain ⟨piece, -, rfl⟩ := List.mem_map.mp hchunk
              rfl
            indexed := by
              unfold Table.Distinct storedChunks
              rw [List.map_map]
              have hindexes : pieces.zipIdx.map Prod.snd = List.range' 0 pieces.length :=
                List.zipIdx_map_snd 0 pieces
              exact (hindexes ▸ List.nodup_range' : (pieces.zipIdx.map Prod.snd).Nodup) }

def indexNow (s : RagState service) (input : IndexInput) : RagState service × RagAnswer σ :=
  match service.prepare input with
  | .error error => (s, .failed error)
  | .ok upsert =>
      ({ s with
          documents := service.store.upsertDocument s.documents upsert
          indexed := s.indexed ++ upsert.chunks.map fun chunk => (input.userId, chunk) },
        .indexed input.documentId upsert.chunks.length)

/-- Asked for, or not refused and large enough for the queue there is. -/
def shouldQueue (text : String) (async : Option Bool) : Bool :=
  async = some true ||
    (async ≠ some false && service.asyncThresholdChars ≤ (codeUnits text).length && service.hasJobs)

def index (s : RagState service) (input : IndexInput) (async : Option Bool) : RagState service × RagAnswer σ :=
  if (codeUnits input.text).length > service.maxDocumentChars then (s, .failed .documentTooLarge)
  else if service.shouldQueue input.text async then
    if ¬ service.hasJobs then (s, .failed .jobQueueNotConfigured)
    else ({ s with jobs := s.jobs ++ [input] }, .queued input.documentId s.jobs.length)
  else service.indexNow s input

def getDocument (s : RagState service) (documentId : String) (userId : Id) : RagAnswer σ :=
  match service.store.getDocument s.documents documentId with
  | none => .failed (.documentNotFound documentId)
  | some document =>
      if ¬ ownsRagDocument document.createdBy userId then .failed (.documentNotFound documentId)
      else .document document

def deleteDocument (s : RagState service) (documentId : String) (userId : Id) : RagState service × RagAnswer σ :=
  match service.store.getDocument s.documents documentId with
  | none => (s, .failed (.documentNotFound documentId))
  | some document =>
      if ¬ ownsRagDocument document.createdBy userId then (s, .failed (.documentNotFound documentId))
      else
        match service.store.deleteDocument s.documents documentId with
        | none => (s, .failed (.documentNotFound documentId))
        | some documents => ({ s with documents }, .deleted documentId)

def search (s : RagState service) (userId : Id) (query : String) (topK : Option ℕ) (minScore : Option σ)
    (documentIds : Option (List String)) (nonempty : documentIds ≠ some []) : RagAnswer σ :=
  let hits := service.store.query s.documents (service.embed query)
    { topK := topK.getD service.topK
      documentIds
      createdBy := some userId
      minScore := some (minScore.getD service.minScore)
      nonempty }
  .found (hits.map fun hit => hit.toStoredChunk.retrieved hit.score)

def whenReady (s : RagState service) (served : RagState service × RagAnswer σ) : RagState service × RagAnswer σ :=
  match service.notReady with
  | some error => (s, .failed error)
  | none => served

/-- A request, or a job of an earlier one. -/
def serve (s : RagState service) : RagRequest σ → RagState service × RagAnswer σ
  | .index userId documentId randomUUID source text metadata async =>
      service.whenReady s (service.index s
        { documentId := documentId.getD randomUUID, source, text, metadata, userId } async)
  | .runJob jobId =>
      match s.jobs[jobId]? with
      | none => (s, .noJob)
      | some input => service.indexNow s input
  | .getDocument documentId userId => service.whenReady s (s, service.getDocument s documentId userId)
  | .deleteDocument documentId userId => service.whenReady s (service.deleteDocument s documentId userId)
  | .search userId query topK minScore documentIds nonempty =>
      service.whenReady s (s, service.search s userId query topK minScore documentIds nonempty)

def step (s : RagState service) (request : RagRequest σ) : RagState service := (service.serve s request).1

end RagService

end DealFlow360.Rag

import DealFlow360.Js
import DealFlow360.Lib.Machine
import DealFlow360.Lib.Table
import DealFlow360.Lib.Top

/-!
# Vector stores

The in-memory store and the Postgres store of the RAG service, with the two
tables behind the latter. An embedding is what the similarity score is taken
of; what the score is, and how the database collates document ids, is left
open. User ids are UUIDs, as the column holds them. JSON columns give back what
was written.

A query is the owner's id, the number of results, the least score and the
filters. The in-memory store scores every chunk it selects; the Postgres store
lists the chunks by document id, up to `maxScan`, and scores those. Equal
scores keep the order of the scan. A score is any function to a linear order,
so the comparison is not tied to an embedding model.
-/

namespace DealFlow360.Rag

variable {ε σ κ : Type*}

/-! ## Documents and chunks -/

abbrev RagChunkMetadata := List (String × JsonScalar)

structure StoredChunk (ε : Type*) where
  chunkId : String
  documentId : String
  chunkIndex : ℕ
  source : String
  content : String
  metadata : RagChunkMetadata
  embedding : ε
  embeddingModel : String
  deriving DecidableEq

structure ScoredChunk (ε σ : Type*) extends StoredChunk ε where
  score : σ
  deriving DecidableEq

/-- What the service passes: chunks of the document itself, each under an index of its own. -/
structure UpsertDocumentInput (ε : Type*) where
  documentId : String
  source : String
  metadata : RagChunkMetadata
  textHash : String
  chunks : List (StoredChunk ε)
  createdBy : Option Id
  own : ∀ chunk ∈ chunks, chunk.documentId = documentId
  indexed : Table.Distinct StoredChunk.chunkIndex chunks

structure IndexedDocumentMeta where
  documentId : String
  source : String
  metadata : RagChunkMetadata
  chunkCount : ℕ
  textHash : String
  createdBy : Option Id
  deriving DecidableEq, Repr

structure VectorQueryOptions (σ : Type*) where
  topK : ℕ
  documentIds : Option (List String) := none
  createdBy : Option Id := none
  minScore : Option σ := none
  nonempty : documentIds ≠ some [] := by nofun

/-- `score >= minScore`, which is minus infinity by default. -/
def VectorQueryOptions.reached [LinearOrder σ] (options : VectorQueryOptions σ) (score : σ) : Bool :=
  options.minScore.all fun minScore => minScore ≤ score

def StoredChunk.scored (similarity : ε → ε → σ) (embedding : ε) (chunk : StoredChunk ε) : ScoredChunk ε σ :=
  { chunk with score := similarity embedding chunk.embedding }

/-! ## In memory -/

structure MemoryDocument (ε : Type*) extends IndexedDocumentMeta where
  chunks : List (StoredChunk ε)

def UpsertDocumentInput.document (input : UpsertDocumentInput ε) : MemoryDocument ε where
  documentId := input.documentId
  source := input.source
  metadata := input.metadata
  chunkCount := input.chunks.length
  textHash := input.textHash
  createdBy := input.createdBy
  chunks := input.chunks

/-- The documents of the map, in the order they were first set. -/
structure MemoryVectorStore (ε : Type*) where
  documents : List (MemoryDocument ε) := []

namespace MemoryVectorStore

def documentId (document : MemoryDocument ε) : String := document.toIndexedDocumentMeta.documentId

variable (store : MemoryVectorStore ε)

def upsertDocument (input : UpsertDocumentInput ε) : MemoryVectorStore ε where
  documents := Table.upsert documentId input.document store.documents

/-- Nothing if the document is not found. -/
def deleteDocument (id : String) : Option (MemoryVectorStore ε) :=
  match Table.lookup documentId id store.documents with
  | none => none
  | some _ => some { documents := Table.erase documentId id store.documents }

def getDocument (id : String) : Option IndexedDocumentMeta :=
  (Table.lookup documentId id store.documents).map MemoryDocument.toIndexedDocumentMeta

/-- The document is allowed, and its user's if the query names one. -/
def selects (options : VectorQueryOptions σ) (document : MemoryDocument ε) : Bool :=
  options.documentIds.all (fun documentIds => documentIds.contains document.documentId) &&
    options.createdBy.all fun createdBy => document.createdBy = some createdBy

/-- What a query sorts. -/
def scored [LinearOrder σ] (similarity : ε → ε → σ) (embedding : ε) (options : VectorQueryOptions σ) :
    List (ScoredChunk ε σ) :=
  (store.documents.filter (selects options)).flatMap fun document =>
    (document.chunks.map (StoredChunk.scored similarity embedding)).filter fun chunk =>
      options.reached chunk.score

def query [LinearOrder σ] (similarity : ε → ε → σ) (embedding : ε) (options : VectorQueryOptions σ) :
    List (ScoredChunk ε σ) :=
  (Top.ranked ScoredChunk.score (store.scored similarity embedding options)).take options.topK

end MemoryVectorStore

/-! ## In the database -/

structure RagDocumentRow where
  id : String
  source : String
  metadata : RagChunkMetadata
  textHash : String
  chunkCount : ℕ
  createdBy : Option Id
  deriving DecidableEq, Repr

def RagDocumentRow.indexed (row : RagDocumentRow) : IndexedDocumentMeta where
  documentId := row.id
  source := row.source
  metadata := row.metadata
  chunkCount := row.chunkCount
  textHash := row.textHash
  createdBy := row.createdBy

def UpsertDocumentInput.row (input : UpsertDocumentInput ε) (createdBy : Option Id) : RagDocumentRow where
  id := input.documentId
  source := input.source
  metadata := input.metadata
  textHash := input.textHash
  chunkCount := input.chunks.length
  createdBy := createdBy

structure RagChunkRow (ε : Type*) where
  id : String
  documentId : String
  chunkIndex : ℕ
  source : String
  content : String
  metadata : RagChunkMetadata
  embedding : ε
  embeddingModel : String
  deriving DecidableEq

def RagChunkRow.ofChunk (chunk : StoredChunk ε) : RagChunkRow ε where
  id := chunk.chunkId
  documentId := chunk.documentId
  chunkIndex := chunk.chunkIndex
  source := chunk.source
  content := chunk.content
  metadata := chunk.metadata
  embedding := chunk.embedding
  embeddingModel := chunk.embeddingModel

def toStoredChunk (row : RagChunkRow ε) : StoredChunk ε where
  chunkId := row.id
  documentId := row.documentId
  chunkIndex := row.chunkIndex
  source := row.source
  content := row.content
  metadata := row.metadata
  embedding := row.embedding
  embeddingModel := row.embeddingModel

@[simp] theorem toStoredChunk_ofChunk (chunk : StoredChunk ε) : toStoredChunk (.ofChunk chunk) = chunk := rfl

theorem toStoredChunk_injective : Function.Injective (@toStoredChunk ε) :=
  Function.LeftInverse.injective (g := RagChunkRow.ofChunk) fun _ => rfl

/-- Unique in the table. -/
def RagChunkRow.position (row : RagChunkRow ε) : String × ℕ :=
  (row.documentId, row.chunkIndex)

structure RagTables (ε : Type*) where
  ragDocument : List RagDocumentRow := []
  ragChunk : List (RagChunkRow ε) := []

/-- `RAG.MAX_SCAN_CHUNKS`. -/
def maxScanChunks : ℕ := 5000

namespace RagTables

variable (tables : RagTables ε)

def createdBy (id : String) : Option Id :=
  (Table.lookup RagDocumentRow.id id tables.ragDocument).bind RagDocumentRow.createdBy

/-- An update leaves a field that is undefined as it is. -/
def writeDocument (input : UpsertDocumentInput ε) : RagTables ε where
  ragDocument := Table.upsert RagDocumentRow.id
    (input.row (input.createdBy <|> tables.createdBy input.documentId)) tables.ragDocument
  ragChunk :=
    tables.ragChunk.filter (fun row => row.documentId ≠ input.documentId) ++ input.chunks.map .ofChunk

/-- Its chunks go with a document. Nothing if the document is not found. -/
def deleteDocument (id : String) : Option (RagTables ε) :=
  match Table.lookup RagDocumentRow.id id tables.ragDocument with
  | none => none
  | some _ => some
      { ragDocument := Table.erase RagDocumentRow.id id tables.ragDocument
        ragChunk := tables.ragChunk.filter fun row => row.documentId ≠ id }

def getDocument (id : String) : Option IndexedDocumentMeta :=
  (Table.lookup RagDocumentRow.id id tables.ragDocument).map RagDocumentRow.indexed

/-- What `listChunks` asks for. -/
def selects (options : VectorQueryOptions σ) (row : RagChunkRow ε) : Bool :=
  options.documentIds.all (fun documentIds => documentIds.contains row.documentId) &&
    options.createdBy.all fun createdBy => tables.createdBy row.documentId = some createdBy

variable [LinearOrder κ] (collate : String ↪ κ)

/-- The rows are ordered by document id, then by chunk index. -/
def rowOrder (row : RagChunkRow ε) : κ ×ₗ ℕ :=
  toLex (collate row.documentId, row.chunkIndex)

def listChunks (options : VectorQueryOptions σ) (limit : ℕ) : List (RagChunkRow ε) :=
  (Top.ranked (fun row => OrderDual.toDual (rowOrder collate row))
    (tables.ragChunk.filter (tables.selects options))).take limit

/-- What a query sorts. -/
def scored [LinearOrder σ] (maxScan : ℕ) (similarity : ε → ε → σ) (embedding : ε)
    (options : VectorQueryOptions σ) : List (ScoredChunk ε σ) :=
  ((tables.listChunks collate options maxScan).map fun row =>
    (toStoredChunk row).scored similarity embedding).filter fun chunk => options.reached chunk.score

/-- `PostgresVectorStore.query`. -/
def query [LinearOrder σ] (maxScan : ℕ) (similarity : ε → ε → σ) (embedding : ε)
    (options : VectorQueryOptions σ) : List (ScoredChunk ε σ) :=
  (Top.ranked ScoredChunk.score (tables.scored collate maxScan similarity embedding options)).take options.topK

end RagTables

/-! ## Runs of both -/

inductive VectorStoreCall (ε : Type*) where
  | upsertDocument (input : UpsertDocumentInput ε)
  | deleteDocument (documentId : String)

/-- A document that is not found is an error that leaves the store as it is. -/
def MemoryVectorStore.step (store : MemoryVectorStore ε) : VectorStoreCall ε → MemoryVectorStore ε
  | .upsertDocument input => store.upsertDocument input
  | .deleteDocument id => (store.deleteDocument id).getD store

def RagTables.step (tables : RagTables ε) : VectorStoreCall ε → RagTables ε
  | .upsertDocument input => tables.writeDocument input
  | .deleteDocument id => (tables.deleteDocument id).getD tables

end DealFlow360.Rag

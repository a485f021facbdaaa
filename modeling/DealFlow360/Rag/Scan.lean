import DealFlow360.Rag.VectorStores
import Mathlib.Data.List.ProdSigma
import Mathlib.Data.String.Basic

/-!
# What a scan leaves out

The two stores hold the same chunks after the same calls. The Postgres store
ranks the first rows by document id, so that a better chunk past them is left
out; and it keeps the owner of a document that is written again without a user,
so that a former owner's query still finds it.

`Mirrors` ties the documents in memory to the two tables: one row for each
document and each chunk, and an owner that can be an earlier one. It is a
simulation, kept by every call on both stores, so the stores hold the same
after any run.

- `mem_listChunks` and `mem_query`: what the Postgres store reads and what of
  it comes first;
- `not_mem_scored_iff`: what its scan has seen matches, up to a document last
  written without a user;
- `vector_stores_agree_iff`: the two answer a query alike exactly if nothing
  left out by the scan ranks among the first and no such document has a chunk
  among them.
-/

namespace DealFlow360.Rag

variable {ε σ κ : Type*} {store : MemoryVectorStore ε} {tables : RagTables ε}

/-! ## The same chunks -/

/-- The documents and the chunks are the same. Who owns a document in the map owns it in the table. -/
structure Mirrors (store : MemoryVectorStore ε) (tables : RagTables ε) : Prop where
  distinct : Table.Distinct MemoryVectorStore.documentId store.documents
  documents : ∀ id, (Table.lookup MemoryVectorStore.documentId id store.documents).isSome =
    (Table.lookup RagDocumentRow.id id tables.ragDocument).isSome
  owners : ∀ document ∈ store.documents, ∀ owner ∈ document.createdBy,
    tables.createdBy document.documentId = some owner
  own : ∀ document ∈ store.documents, ∀ chunk ∈ document.chunks, chunk.documentId = document.documentId
  indexed : ∀ document ∈ store.documents, Table.Distinct StoredChunk.chunkIndex document.chunks
  positions : Table.Distinct RagChunkRow.position tables.ragChunk
  chunks : ∀ row, row ∈ tables.ragChunk ↔ ∃ document ∈ store.documents, toStoredChunk row ∈ document.chunks

theorem mirrors_empty : Mirrors ({} : MemoryVectorStore ε) {} where
  distinct := List.nodup_nil
  documents _ := rfl
  owners _ h := absurd h List.not_mem_nil
  own _ h := absurd h List.not_mem_nil
  indexed _ h := absurd h List.not_mem_nil
  positions := List.nodup_nil
  chunks _ := iff_of_false List.not_mem_nil fun ⟨_, h, _⟩ => absurd h List.not_mem_nil

theorem lookup_upsertDocument (input : UpsertDocumentInput ε) (id : String) :
    Table.lookup MemoryVectorStore.documentId id (store.upsertDocument input).documents =
      if input.documentId = id then some input.document
      else Table.lookup MemoryVectorStore.documentId id store.documents :=
  Table.lookup_upsert _ _ _

theorem lookup_writeDocument (input : UpsertDocumentInput ε) (id : String) :
    Table.lookup RagDocumentRow.id id (tables.writeDocument input).ragDocument =
      if input.documentId = id then some (input.row (input.createdBy <|> tables.createdBy input.documentId))
      else Table.lookup RagDocumentRow.id id tables.ragDocument :=
  Table.lookup_upsert _ _ _

theorem mirrors_upsertDocument (hs : Mirrors store tables) (input : UpsertDocumentInput ε) :
    Mirrors (store.upsertDocument input) (tables.writeDocument input) := by
  have hmem : ∀ document, document ∈ (store.upsertDocument input).documents ↔
      document = input.document ∨ document ∈ store.documents ∧ document.documentId ≠ input.documentId :=
    fun document => Table.mem_upsert_iff hs.distinct
  refine ⟨Table.distinct_upsert hs.distinct _, fun id => ?_, ?_, ?_, ?_, ?_, fun row => ?_⟩
  · rw [lookup_upsertDocument, lookup_writeDocument]
    by_cases hid : input.documentId = id
    · rw [if_pos hid, if_pos hid]
      rfl
    · rw [if_neg hid, if_neg hid]
      exact hs.documents id
  · intro document hdocument owner howner
    unfold RagTables.createdBy
    rw [lookup_writeDocument]
    rcases (hmem document).mp hdocument with rfl | ⟨hold, hne⟩
    · have hgiven : input.createdBy = some owner := howner
      have hsame : input.document.documentId = input.documentId := rfl
      rw [hgiven, hsame, if_pos rfl]
      rfl
    · rw [if_neg (Ne.symm hne)]
      exact hs.owners document hold owner howner
  · intro document hdocument
    rcases (hmem document).mp hdocument with rfl | ⟨hold, -⟩
    · exact input.own
    · exact hs.own document hold
  · intro document hdocument
    rcases (hmem document).mp hdocument with rfl | ⟨hold, -⟩
    · exact input.indexed
    · exact hs.indexed document hold
  · unfold Table.Distinct RagTables.writeDocument
    rw [List.map_append, List.nodup_append]
    refine ⟨Table.distinct_filter hs.positions _, ?_, ?_⟩
    · rw [List.map_map]
      refine (List.Nodup.of_map _ input.indexed).map_on fun a ha b hb heq => ?_
      exact List.inj_on_of_nodup_map input.indexed ha hb (congrArg Prod.snd heq)
    · rintro position hold _ hnew rfl
      obtain ⟨row, hrow, rfl⟩ := List.mem_map.mp hold
      obtain ⟨added, hadded, heq⟩ := List.mem_map.mp hnew
      obtain ⟨chunk, hchunk, rfl⟩ := List.mem_map.mp hadded
      have hne : row.documentId ≠ input.documentId := by simpa using (List.mem_filter.mp hrow).2
      exact hne ((congrArg Prod.fst heq).symm.trans (input.own chunk hchunk))
  · unfold RagTables.writeDocument
    rw [List.mem_append, List.mem_filter, List.mem_map]
    constructor
    · rintro (⟨hrow, hne⟩ | ⟨chunk, hchunk, rfl⟩)
      · obtain ⟨document, hdocument, hchunk⟩ := (hs.chunks row).mp hrow
        refine ⟨document, (hmem document).mpr (.inr ⟨hdocument, ?_⟩), hchunk⟩
        intro heq
        have hne : row.documentId ≠ input.documentId := by simpa using hne
        exact hne ((hs.own document hdocument _ hchunk).trans heq)
      · exact ⟨_, (hmem _).mpr (.inl rfl), hchunk⟩
    · rintro ⟨document, hdocument, hchunk⟩
      rcases (hmem document).mp hdocument with rfl | ⟨hold, hne⟩
      · exact .inr ⟨toStoredChunk row, hchunk, rfl⟩
      · refine .inl ⟨(hs.chunks row).mpr ⟨document, hold, hchunk⟩, ?_⟩
        have hown : row.documentId = document.documentId := hs.own document hold _ hchunk
        rw [decide_eq_true_iff, hown]
        exact hne

theorem mirrors_deleteDocument (hs : Mirrors store tables) (id : String) :
    Mirrors ((store.deleteDocument id).getD store) ((tables.deleteDocument id).getD tables) := by
  have hfound := hs.documents id
  unfold MemoryVectorStore.deleteDocument RagTables.deleteDocument
  cases hdocument : Table.lookup MemoryVectorStore.documentId id store.documents with
  | none =>
      rw [hdocument] at hfound
      cases hrow : Table.lookup RagDocumentRow.id id tables.ragDocument with
      | none => exact hs
      | some row =>
          rw [hrow] at hfound
          cases hfound
  | some document =>
      rw [hdocument] at hfound
      cases hrow : Table.lookup RagDocumentRow.id id tables.ragDocument with
      | none =>
          rw [hrow] at hfound
          cases hfound
      | some row =>
          refine ⟨Table.distinct_erase hs.distinct id, fun other => ?_, ?_, ?_, ?_,
            Table.distinct_filter hs.positions _, fun row => ?_⟩
          · show (Table.lookup _ other (Table.erase _ id _)).isSome = (Table.lookup _ other (Table.erase _ id _)).isSome
            rw [Table.lookup_erase, Table.lookup_erase]
            by_cases hid : id = other
            · rw [if_pos hid, if_pos hid]
              rfl
            · rw [if_neg hid, if_neg hid]
              exact hs.documents other
          · intro document hdocument owner howner
            obtain ⟨hold, hne⟩ := Table.mem_erase.mp hdocument
            show (Table.lookup _ _ (Table.erase _ id _)).bind _ = _
            have hkept : id ≠ document.documentId := Ne.symm hne
            rw [Table.lookup_erase, if_neg hkept]
            exact hs.owners document hold owner howner
          · exact fun document hdocument => hs.own document (Table.mem_erase.mp hdocument).1
          · exact fun document hdocument => hs.indexed document (Table.mem_erase.mp hdocument).1
          · show row ∈ tables.ragChunk.filter _ ↔ ∃ document ∈ Table.erase _ id _, _
            rw [List.mem_filter]
            constructor
            · rintro ⟨hrow, hne⟩
              obtain ⟨document, hdocument, hchunk⟩ := (hs.chunks row).mp hrow
              refine ⟨document, Table.mem_erase.mpr ⟨hdocument, ?_⟩, hchunk⟩
              intro heq
              have hne : row.documentId ≠ id := by simpa using hne
              exact hne ((hs.own document hdocument _ hchunk).trans heq)
            · rintro ⟨document, hdocument, hchunk⟩
              obtain ⟨hold, hne⟩ := Table.mem_erase.mp hdocument
              have hown : row.documentId = document.documentId := hs.own document hold _ hchunk
              refine ⟨(hs.chunks row).mpr ⟨document, hold, hchunk⟩, ?_⟩
              rw [decide_eq_true_iff, hown]
              exact hne

theorem mirrors_step (hs : Mirrors store tables) (call : VectorStoreCall ε) :
    Mirrors (store.step call) (tables.step call) := by
  cases call with
  | upsertDocument input => exact mirrors_upsertDocument hs input
  | deleteDocument id => exact mirrors_deleteDocument hs id

theorem mirrors_run (calls : List (VectorStoreCall ε)) :
    Mirrors (Machine.run MemoryVectorStore.step {} calls) (Machine.run RagTables.step {} calls) :=
  Machine.simulation (R := Mirrors) (fun _ _ call hs => mirrors_step hs call) mirrors_empty calls

/-! ## What the condition is -/

section Queries

variable [LinearOrder σ] [LinearOrder κ] (collate : String ↪ κ) (maxScan : ℕ) (similarity : ε → ε → σ)
  (embedding : ε) (options : VectorQueryOptions σ)

/-- Both results are the best of the chunks that match, in some order of equal scores. -/
structure Agree (store : MemoryVectorStore ε) (tables : RagTables ε) : Prop where
  memory : Top.Best ScoredChunk.score options.topK (store.scored similarity embedding options)
    (store.query similarity embedding options)
  postgres : Top.Best ScoredChunk.score options.topK (store.scored similarity embedding options)
    (tables.query collate maxScan similarity embedding options)

/-- Fewer than `maxScan` rows that are asked for come before the row. -/
def RagTables.Scanned (tables : RagTables ε) (row : RagChunkRow ε) : Prop :=
  tables.selects options row = true ∧
    tables.ragChunk.countP (fun other => tables.selects options other &&
      decide (RagTables.rowOrder collate other < RagTables.rowOrder collate row)) < maxScan

instance (tables : RagTables ε) (row : RagChunkRow ε) : Decidable (tables.Scanned collate maxScan options row) :=
  inferInstanceAs (Decidable (_ ∧ _))

/-- The scanned chunks of a sufficient score. -/
def RagTables.seen (tables : RagTables ε) : List (ScoredChunk ε σ) :=
  ((tables.ragChunk.filter fun row => tables.Scanned collate maxScan options row).map fun row =>
    (toStoredChunk row).scored similarity embedding).filter fun chunk => options.reached chunk.score

/-- Where a chunk stands in the scan. -/
def ScoredChunk.order (chunk : ScoredChunk ε σ) : κ ×ₗ ℕ :=
  toLex (collate chunk.documentId, chunk.chunkIndex)

/-- A chunk of a higher score, or of the same score and before it in the scan. -/
def ScoredChunk.Ahead (other chunk : ScoredChunk ε σ) : Prop :=
  chunk.score < other.score ∨ chunk.score = other.score ∧ other.order collate < chunk.order collate

instance (other chunk : ScoredChunk ε σ) : Decidable (ScoredChunk.Ahead collate other chunk) :=
  inferInstanceAs (Decidable (_ ∨ _))

/-- What the scan leaves out is reached by `topK` chunks that were seen, and `topK` chunks that were seen are ahead
of every chunk of a document that was last written without a user. -/
structure ScanSuffices (store : MemoryVectorStore ε) (tables : RagTables ε) : Prop where
  unscanned : ∀ document ∈ store.documents, MemoryVectorStore.selects options document = true →
    ∀ chunk ∈ document.chunks, options.reached (similarity embedding chunk.embedding) = true →
      ¬ tables.Scanned collate maxScan options (.ofChunk chunk) →
        options.topK ≤ (tables.seen collate maxScan similarity embedding options).countP fun other =>
          similarity embedding chunk.embedding ≤ other.score
  disowned : options.createdBy ≠ none →
    ∀ chunk ∈ tables.seen collate maxScan similarity embedding options, ∀ document ∈ store.documents,
      document.documentId = chunk.documentId → document.createdBy = none →
        options.topK ≤ (tables.seen collate maxScan similarity embedding options).countP fun other =>
          other.Ahead collate chunk

end Queries

/-! ## What a query reads -/

section Reads

variable {collate : String ↪ κ} {maxScan : ℕ} {similarity : ε → ε → σ} {embedding : ε}
  {options : VectorQueryOptions σ}

theorem scored_injective : Function.Injective (StoredChunk.scored similarity embedding) := by
  intro a b h
  exact congrArg ScoredChunk.toStoredChunk h

theorem nodup_of_positions (hs : Mirrors store tables) : tables.ragChunk.Nodup :=
  List.Nodup.of_map _ hs.positions

theorem rowOrder_injective (hs : Mirrors store tables) {a b : RagChunkRow ε} (ha : a ∈ tables.ragChunk)
    (hb : b ∈ tables.ragChunk) (h : RagTables.rowOrder collate a = RagTables.rowOrder collate b) : a = b := by
  obtain ⟨hdocument, hindex⟩ := Prod.mk.inj (toLex_inj.mp h)
  exact List.inj_on_of_nodup_map hs.positions ha hb (Prod.ext (collate.injective hdocument) hindex)

/-- Whoever owns the row owns the document, unless it was last written without a user. -/
theorem selects_of_row (hs : Mirrors store tables) {document : MemoryDocument ε}
    (hdocument : document ∈ store.documents)
    {row : RagChunkRow ε} (hrow : toStoredChunk row ∈ document.chunks) (hselects : tables.selects options row = true)
    (howned : options.createdBy ≠ none → document.createdBy ≠ none) :
    MemoryVectorStore.selects options document = true := by
  have hown : row.documentId = document.documentId := hs.own document hdocument _ hrow
  unfold RagTables.selects at hselects
  unfold MemoryVectorStore.selects
  rw [Bool.and_eq_true] at hselects ⊢
  rw [hown] at hselects
  refine ⟨hselects.1, ?_⟩
  cases hcreated : options.createdBy with
  | none => rfl
  | some createdBy =>
      have howner := hselects.2
      rw [hcreated, Option.all_some, decide_eq_true_iff] at howner
      obtain ⟨owner, hdocumentOwner⟩ := Option.ne_none_iff_exists'.mp (howned (by rw [hcreated]; nofun))
      have hsame := (hs.owners document hdocument owner hdocumentOwner).symm.trans howner
      rw [Option.all_some, decide_eq_true_iff, hdocumentOwner, hsame]

variable [LinearOrder κ]

/-- The rows come in their order, and those come that fewer than `maxScan` come before. -/
theorem mem_listChunks (hs : Mirrors store tables) {row : RagChunkRow ε} :
    row ∈ tables.listChunks collate options maxScan ↔
      row ∈ tables.ragChunk ∧ tables.Scanned collate maxScan options row := by
  have hrows := (nodup_of_positions hs).filter (tables.selects options)
  unfold RagTables.listChunks RagTables.Scanned
  rw [Top.mem_take_ranked hrows]
  · rw [List.mem_filter, List.countP_filter, and_assoc]
    simp only [OrderDual.toDual_lt_toDual, Bool.and_comm]
  · intro a ha b hb heq
    exact rowOrder_injective hs (List.mem_filter.mp ha).1 (List.mem_filter.mp hb).1 (OrderDual.toDual_inj.mp heq)

theorem pairwise_listChunks (hs : Mirrors store tables) :
    (tables.listChunks collate options maxScan).Pairwise fun a b =>
      RagTables.rowOrder collate a < RagTables.rowOrder collate b := by
  have hrows := (nodup_of_positions hs).filter (tables.selects options)
  refine List.Pairwise.sublist (List.take_sublist _ _) ?_
  refine ((Top.ranked_pairwise _).and ((Top.ranked_perm _).symm.nodup hrows)).imp_of_mem ?_
  rintro a b ha hb ⟨hle, hne⟩
  refine (OrderDual.toDual_le_toDual.mp hle).lt_of_ne fun heq => hne ?_
  have hmemA := (List.mem_filter.mp (Top.mem_ranked.mp ha)).1
  have hmemB := (List.mem_filter.mp (Top.mem_ranked.mp hb)).1
  exact rowOrder_injective hs hmemA hmemB heq

theorem nodup_listChunks (hs : Mirrors store tables) : (tables.listChunks collate options maxScan).Nodup := by
  refine List.Pairwise.imp ?_ (pairwise_listChunks hs)
  rintro a b hlt rfl
  exact lt_irrefl _ hlt

variable [LinearOrder σ]

theorem pairwise_scored (hs : Mirrors store tables) :
    (tables.scored collate maxScan similarity embedding options).Pairwise fun a b =>
      a.order collate < b.order collate := by
  unfold RagTables.scored
  refine (List.pairwise_map.mpr ?_).filter _
  exact pairwise_listChunks hs

theorem order_injective (hs : Mirrors store tables) {a b : ScoredChunk ε σ}
    (ha : a ∈ tables.scored collate maxScan similarity embedding options)
    (hb : b ∈ tables.scored collate maxScan similarity embedding options)
    (h : a.order collate = b.order collate) : a = b := by
  have horders : ((tables.scored collate maxScan similarity embedding options).map
      (ScoredChunk.order collate)).Nodup :=
    List.pairwise_map.mpr ((pairwise_scored hs).imp fun hlt => hlt.ne)
  exact List.inj_on_of_nodup_map horders ha hb h

theorem nodup_scored (hs : Mirrors store tables) :
    (tables.scored collate maxScan similarity embedding options).Nodup := by
  unfold RagTables.scored
  refine ((nodup_listChunks hs).map ?_).filter _
  exact scored_injective.comp toStoredChunk_injective

/-- What the query sorts is what is seen, in the order of the scan. -/
theorem scored_perm_seen (hs : Mirrors store tables) :
    (tables.scored collate maxScan similarity embedding options).Perm
      (tables.seen collate maxScan similarity embedding options) := by
  unfold RagTables.scored RagTables.seen
  refine ((List.perm_ext_iff_of_nodup ?_ ((nodup_of_positions hs).filter _)).mpr fun row => ?_).map _ |>.filter _
  · exact nodup_listChunks hs
  · rw [mem_listChunks hs, List.mem_filter, decide_eq_true_iff]

theorem mem_seen {chunk : ScoredChunk ε σ} :
    chunk ∈ tables.seen collate maxScan similarity embedding options ↔
      ∃ row ∈ tables.ragChunk, tables.Scanned collate maxScan options row ∧
        options.reached chunk.score = true ∧ (toStoredChunk row).scored similarity embedding = chunk := by
  unfold RagTables.seen
  rw [List.mem_filter, List.mem_map]
  constructor
  · rintro ⟨⟨row, hrow, rfl⟩, hreached⟩
    obtain ⟨hmem, hscanned⟩ := List.mem_filter.mp hrow
    exact ⟨row, hmem, of_decide_eq_true hscanned, hreached, rfl⟩
  · rintro ⟨row, hmem, hscanned, hreached, rfl⟩
    exact ⟨⟨row, List.mem_filter.mpr ⟨hmem, decide_eq_true hscanned⟩, rfl⟩, hreached⟩

theorem mem_scored {chunk : ScoredChunk ε σ} :
    chunk ∈ store.scored similarity embedding options ↔
      ∃ document ∈ store.documents, MemoryVectorStore.selects options document = true ∧
        ∃ stored ∈ document.chunks, options.reached chunk.score = true ∧
          stored.scored similarity embedding = chunk := by
  unfold MemoryVectorStore.scored
  rw [List.mem_flatMap]
  constructor
  · rintro ⟨document, hdocument, hchunk⟩
    obtain ⟨hmem, hselects⟩ := List.mem_filter.mp hdocument
    obtain ⟨hmap, hreached⟩ := List.mem_filter.mp hchunk
    obtain ⟨stored, hstored, heq⟩ := List.mem_map.mp hmap
    exact ⟨document, hmem, hselects, stored, hstored, hreached, heq⟩
  · rintro ⟨document, hmem, hselects, stored, hstored, hreached, heq⟩
    exact ⟨document, List.mem_filter.mpr ⟨hmem, hselects⟩,
      List.mem_filter.mpr ⟨List.mem_map.mpr ⟨stored, hstored, heq⟩, hreached⟩⟩

theorem nodup_memory_scored (hs : Mirrors store tables) :
    (store.scored similarity embedding options).Nodup := by
  unfold MemoryVectorStore.scored
  rw [List.nodup_flatMap]
  constructor
  · intro document hdocument
    have hindexed := hs.indexed document (List.mem_filter.mp hdocument).1
    exact ((List.Nodup.of_map _ hindexed).map scored_injective).filter _
  · refine ((List.Nodup.of_map _ hs.distinct).filter _).imp_of_mem ?_
    intro a b ha hb hne
    refine List.disjoint_left.mpr fun chunk hfirst hsecond => hne ?_
    obtain ⟨stored, hstored, rfl⟩ := List.mem_map.mp (List.mem_filter.mp hfirst).1
    obtain ⟨other, hother, heq⟩ := List.mem_map.mp (List.mem_filter.mp hsecond).1
    cases scored_injective heq
    have hmemA := (List.mem_filter.mp ha).1
    have hmemB := (List.mem_filter.mp hb).1
    have hsame : a.documentId = b.documentId :=
      (hs.own a hmemA _ hstored).symm.trans (hs.own b hmemB _ hother)
    exact List.inj_on_of_nodup_map hs.distinct hmemA hmemB hsame

/-- The first ones of the query are those that fewer than `topK` are ahead of. -/
theorem mem_query (hs : Mirrors store tables) {chunk : ScoredChunk ε σ} :
    chunk ∈ tables.query collate maxScan similarity embedding options ↔
      chunk ∈ tables.seen collate maxScan similarity embedding options ∧
        (tables.seen collate maxScan similarity embedding options).countP
          (fun other => other.Ahead collate chunk) < options.topK := by
  have hkeyed : (tables.scored collate maxScan similarity embedding options).Pairwise fun a b =>
      OrderDual.toDual (b.order collate) < OrderDual.toDual (a.order collate) :=
    (pairwise_scored hs).imp fun hlt => OrderDual.toDual_lt_toDual.mpr hlt
  unfold RagTables.query
  rw [Top.ranked_of_keyed hkeyed, Top.mem_take_ranked (nodup_scored hs), (scored_perm_seen hs).mem_iff,
    (scored_perm_seen hs).countP_eq]
  · have hahead : ∀ other : ScoredChunk ε σ,
        toLex (chunk.score, OrderDual.toDual (chunk.order collate)) <
          toLex (other.score, OrderDual.toDual (other.order collate)) ↔ other.Ahead collate chunk := by
      intro other
      rw [Prod.Lex.toLex_lt_toLex]
      rfl
    simp only [hahead]
  · intro a ha b hb heq
    obtain ⟨-, horder⟩ := Prod.mk.inj (toLex_inj.mp heq)
    exact order_injective hs ha hb (OrderDual.toDual_inj.mp horder)

/-! ## Two queries -/

theorem seen_iff_scanned (hs : Mirrors store tables) {document : MemoryDocument ε}
    (hdocument : document ∈ store.documents)
    {chunk : StoredChunk ε} (hchunk : chunk ∈ document.chunks)
    (hreached : options.reached (similarity embedding chunk.embedding) = true) :
    chunk.scored similarity embedding ∈ tables.seen collate maxScan similarity embedding options ↔
      tables.Scanned collate maxScan options (.ofChunk chunk) := by
  rw [mem_seen]
  constructor
  · rintro ⟨row, -, hscanned, -, heq⟩
    have hsame : row = .ofChunk chunk := congrArg RagChunkRow.ofChunk (scored_injective heq)
    exact hsame ▸ hscanned
  · intro hscanned
    exact ⟨.ofChunk chunk, (hs.chunks _).mpr ⟨document, hdocument, hchunk⟩, hscanned, hreached, rfl⟩

/-- What the scan has seen matches, but for a document that was last written without a user. -/
theorem not_mem_scored_iff (hs : Mirrors store tables) {chunk : ScoredChunk ε σ}
    (hseen : chunk ∈ tables.seen collate maxScan similarity embedding options) :
    chunk ∉ store.scored similarity embedding options ↔
      options.createdBy ≠ none ∧
        ∃ document ∈ store.documents, document.documentId = chunk.documentId ∧ document.createdBy = none := by
  obtain ⟨row, hrow, hscanned, hreached, rfl⟩ := mem_seen.mp hseen
  obtain ⟨document, hdocument, hchunk⟩ := (hs.chunks row).mp hrow
  have hown := hs.own document hdocument _ hchunk
  constructor
  · intro hmissing
    by_contra hnone
    refine hmissing (mem_scored.mpr ⟨document, hdocument, ?_, _, hchunk, hreached, rfl⟩)
    exact selects_of_row hs hdocument hchunk hscanned.1 fun hnamed howner =>
      hnone ⟨hnamed, document, hdocument, hown.symm, howner⟩
  · rintro ⟨hnamed, other, hother, hsame, hnone⟩ hmatches
    obtain ⟨found, hfound, hselects, stored, hstored, -, heq⟩ := mem_scored.mp hmatches
    cases scored_injective heq
    have hids : other.documentId = found.documentId := hsame.trans (hs.own found hfound _ hstored)
    cases List.inj_on_of_nodup_map hs.distinct hother hfound hids
    unfold MemoryVectorStore.selects at hselects
    rw [Bool.and_eq_true] at hselects
    obtain ⟨createdBy, hcreated⟩ := Option.ne_none_iff_exists'.mp hnamed
    have howner := hselects.2
    rw [hcreated, Option.all_some, decide_eq_true_iff, hnone] at howner
    cases howner

theorem agree_iff (hs : Mirrors store tables) :
    Agree collate maxScan similarity embedding options store tables ↔
      ScanSuffices collate maxScan similarity embedding options store tables := by
  constructor
  · rintro ⟨-, hpostgres⟩
    obtain ⟨hamong, hrest⟩ :=
      (Top.best_take_ranked_iff (nodup_memory_scored hs) (nodup_scored hs)).mp hpostgres
    constructor
    · intro document hdocument hselects chunk hchunk hreached hunscanned
      have hmatches : chunk.scored similarity embedding ∈ store.scored similarity embedding options :=
        mem_scored.mpr ⟨document, hdocument, hselects, chunk, hchunk, hreached, rfl⟩
      rw [← (scored_perm_seen hs).countP_eq]
      refine hrest _ hmatches fun hmem => hunscanned ?_
      exact (seen_iff_scanned hs hdocument hchunk hreached).mp ((scored_perm_seen hs).mem_iff.mp hmem)
    · intro hnamed chunk hseen document hdocument hid hnone
      by_contra hfew
      have hquery := (mem_query hs).mpr ⟨hseen, not_le.mp hfew⟩
      exact (not_mem_scored_iff hs hseen).mpr ⟨hnamed, document, hdocument, hid, hnone⟩ (hamong chunk hquery)
  · intro hsuffices
    refine ⟨Top.best_ranked _ _, ?_⟩
    refine (Top.best_take_ranked_iff (nodup_memory_scored hs) (nodup_scored hs)).mpr ⟨?_, ?_⟩
    · intro chunk hchunk
      obtain ⟨hseen, hcount⟩ := (mem_query hs).mp hchunk
      by_contra hmissing
      obtain ⟨hnamed, document, hdocument, hid, hnone⟩ := (not_mem_scored_iff hs hseen).mp hmissing
      exact absurd hcount (not_lt.mpr (hsuffices.disowned hnamed chunk hseen document hdocument hid hnone))
    · intro chunk hmatches hunseen
      obtain ⟨document, hdocument, hselects, stored, hstored, hreached, rfl⟩ := mem_scored.mp hmatches
      rw [(scored_perm_seen hs).countP_eq]
      refine hsuffices.unscanned document hdocument hselects stored hstored hreached fun hscanned => hunseen ?_
      exact (scored_perm_seen hs).mem_iff.mpr ((seen_iff_scanned hs hdocument hstored hreached).mpr hscanned)

end Reads

/-- The stores agree on a query exactly if what the scan leaves out does not rank among the first, and no chunk of a
document that was last written without a user does. -/
theorem vector_stores_agree_iff [LinearOrder σ] [LinearOrder κ] (collate : String ↪ κ) (maxScan : ℕ)
    (similarity : ε → ε → σ) (calls : List (VectorStoreCall ε)) (embedding : ε) (options : VectorQueryOptions σ) :
    Agree collate maxScan similarity embedding options (Machine.run MemoryVectorStore.step {} calls)
        (Machine.run RagTables.step {} calls) ↔
      ScanSuffices collate maxScan similarity embedding options (Machine.run MemoryVectorStore.step {} calls)
        (Machine.run RagTables.step {} calls) :=
  agree_iff (mirrors_run calls)

/-! ## A store too large to scan -/

section Large

def fillerChunk (id : String) (score chunkIndex : ℕ) : StoredChunk ℕ where
  chunkId := id ++ ":" ++ padStart (toString chunkIndex) 4 '0'
  documentId := id
  chunkIndex := chunkIndex
  source := "notes"
  content := "text"
  metadata := []
  embedding := score
  embeddingModel := "lexical"

/-- Chunks that all score the same. -/
def fillerDocument (id : String) (count score : ℕ) : UpsertDocumentInput ℕ where
  documentId := id
  source := "notes"
  metadata := []
  textHash := ""
  chunks := (List.range count).map (fillerChunk id score)
  createdBy := some 1
  own := by
    intro chunk hchunk
    obtain ⟨index, -, rfl⟩ := List.mem_map.mp hchunk
    rfl
  indexed := by
    unfold Table.Distinct
    rw [List.map_map]
    exact (List.map_id _).symm ▸ List.nodup_range

theorem mem_fillerDocument {id : String} {count score : ℕ} {chunk : StoredChunk ℕ} :
    chunk ∈ (fillerDocument id count score).document.chunks ↔
      ∃ index < count, fillerChunk id score index = chunk := by
  show chunk ∈ (List.range count).map (fillerChunk id score) ↔ _
  rw [List.mem_map]
  simp only [List.mem_range]

/-- Five documents of a thousand chunks, then one of a better chunk. -/
def largeStore : List (VectorStoreCall ℕ) :=
  ["a", "b", "c", "d", "e"].map (fun id => .upsertDocument (fillerDocument id 1000 0)) ++
    [.upsertDocument (fillerDocument "f" 1 1)]

theorem largeStore_documents :
    (Machine.run MemoryVectorStore.step {} largeStore).documents =
      ["a", "b", "c", "d", "e"].map (fun id => (fillerDocument id 1000 0).document) ++
        [(fillerDocument "f" 1 1).document] :=
  rfl

/-- The rows of the five documents come before that of the sixth. -/
theorem largeStore_ahead :
    5000 ≤ (Machine.run RagTables.step {} largeStore).ragChunk.countP fun row =>
      decide (RagTables.rowOrder (Function.Embedding.refl String) row <
        RagTables.rowOrder (Function.Embedding.refl String) (.ofChunk (fillerChunk "f" 1 0))) := by
  have hmirrors := mirrors_run largeStore
  let rows := (["a", "b", "c", "d", "e"] ×ˢ List.range 1000).map fun position =>
    RagChunkRow.ofChunk (fillerChunk position.1 0 position.2)
  have hnodup : rows.Nodup := by
    refine List.Nodup.map ?_ (List.Nodup.product (by decide) List.nodup_range)
    intro a b h
    exact congrArg RagChunkRow.position h
  have hlength : rows.length = 5000 := by
    rw [List.length_map, List.length_product, List.length_range]
    rfl
  have hsubset : rows ⊆ (Machine.run RagTables.step {} largeStore).ragChunk.filter fun row =>
      decide (RagTables.rowOrder (Function.Embedding.refl String) row <
        RagTables.rowOrder (Function.Embedding.refl String) (.ofChunk (fillerChunk "f" 1 0))) := by
    intro row hrow
    obtain ⟨⟨id, index⟩, hposition, rfl⟩ := List.mem_map.mp hrow
    obtain ⟨hid, hindex⟩ := List.mem_product.mp hposition
    refine List.mem_filter.mpr ⟨(hmirrors.chunks _).mpr ⟨(fillerDocument id 1000 0).document, ?_, ?_⟩, ?_⟩
    · rw [largeStore_documents]
      exact List.mem_append_left _ (List.mem_map_of_mem hid)
    · exact mem_fillerDocument.mpr ⟨index, List.mem_range.mp hindex, rfl⟩
    · have hbefore : ∀ id ∈ ["a", "b", "c", "d", "e"], id < "f" := by decide
      exact decide_eq_true (Prod.Lex.toLex_lt_toLex.mpr (.inl (hbefore id hid)))
  rw [List.countP_eq_length_filter, ← hlength]
  exact (List.subperm_of_subset hnodup hsubset).length_le

theorem best_left_out :
    ¬ Agree (Function.Embedding.refl String) maxScanChunks (fun _ embedding => embedding) 0 { topK := 1 }
      (Machine.run MemoryVectorStore.step {} largeStore) (Machine.run RagTables.step {} largeStore) := by
  have hmirrors := mirrors_run largeStore
  have hahead := largeStore_ahead
  have hdocuments := largeStore_documents
  rw [agree_iff hmirrors]
  generalize Machine.run MemoryVectorStore.step {} largeStore = store at *
  generalize Machine.run RagTables.step {} largeStore = tables at *
  intro hsuffices
  have hunscanned : ¬ tables.Scanned (Function.Embedding.refl String) maxScanChunks
      ({ topK := 1 } : VectorQueryOptions ℕ) (.ofChunk (fillerChunk "f" 1 0)) := by
    rintro ⟨-, hfew⟩
    exact absurd hfew (not_lt.mpr hahead)
  have hmem : (fillerDocument "f" 1 1).document ∈ store.documents := by
    rw [hdocuments]
    exact List.mem_append_right _ (List.mem_singleton_self _)
  have hreached := hsuffices.unscanned _ hmem rfl (fillerChunk "f" 1 0) List.mem_cons_self rfl hunscanned
  obtain ⟨chunk, hchunk, hscore⟩ := List.countP_pos_iff.mp (Nat.lt_of_lt_of_le Nat.zero_lt_one hreached)
  obtain ⟨row, hrow, hscanned, -, rfl⟩ := mem_seen.mp hchunk
  obtain ⟨document, hdocument, hstored⟩ := (hmirrors.chunks row).mp hrow
  have hscore : 1 ≤ row.embedding := of_decide_eq_true hscore
  rw [hdocuments] at hdocument
  rcases List.mem_append.mp hdocument with hfiller | hlast
  · obtain ⟨id, -, rfl⟩ := List.mem_map.mp hfiller
    obtain ⟨index, -, heq⟩ := mem_fillerDocument.mp hstored
    have hzero : row.embedding = 0 := (congrArg StoredChunk.embedding heq).symm
    omega
  · cases List.mem_singleton.mp hlast
    obtain ⟨index, hindex, heq⟩ := mem_fillerDocument.mp hstored
    cases Nat.lt_one_iff.mp hindex
    have hrow' : RagChunkRow.ofChunk (fillerChunk "f" 1 0) = row := congrArg RagChunkRow.ofChunk heq
    exact hunscanned (hrow' ▸ hscanned)

end Large

end DealFlow360.Rag

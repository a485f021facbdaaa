import DealFlow360.QuoteStep
import Mathlib.Data.List.Perm.Subperm

/-!
# Quote numbers

The Prisma store numbers a new quote after the count of the quotes there are.
While only the newest quote is ever deleted, the numbers are those up to the
count and the next one is free; the deletion of an older quote leaves a quote
with the number that comes next.

`NumberedQuotes` is the invariant: the stored numbers are those up to the
count, each once. Creating adds the next one; deleting the newest quote takes
the last one away (`NumberedQuotes.erase`); every other call leaves the table's
numbers alone.

- `fresh_numbers`: in every run in which only the newest quote is deleted, each
  new quote gets a number no stored quote has;
- `number_handed_twice`: two quotes, the first deleted, a third created.

Numbers are texts with padding; as digits the padding is not seen
(`digits_padStart`).
-/

namespace DealFlow360

open Program

/-! ## The numbers -/

def quoteNumber (n : ℕ) : String := "DF-" ++ padStart (toString n) 5 '0'

/-- Read as digits, the padding is not seen. -/
theorem digits_padStart (n : ℕ) : Nat.ofDigitChars 10 (padStart (toString n) 5 '0').toList 0 = n := by
  unfold padStart
  rw [String.toList_ofList, Nat.ofDigitChars_append, Nat.ofDigitChars_replicate_zero, Nat.mul_zero]
  show Nat.ofDigitChars 10 (Nat.repr n).toList 0 = n
  rw [Nat.toList_repr, Nat.ofDigitChars_ten_toDigits]

theorem quoteNumber_inj {m n : ℕ} (h : quoteNumber m = quoteNumber n) : m = n := by
  have hpadded : (padStart (toString m) 5 '0').toList = (padStart (toString n) 5 '0').toList := by
    have hlists := congrArg String.toList h
    unfold quoteNumber at hlists
    rw [String.toList_append, String.toList_append] at hlists
    exact List.append_cancel_left hlists
  rw [← digits_padStart m, hpadded, digits_padStart]

/-- `nextQuoteNumber` of the Prisma store. -/
def Store.countedNumber (store : Store) : String := quoteNumber (store.quotes.length + 1)

/-- The world whose next number is the counted one. -/
def World.counted (w : World) : World := { w with store := { w.store with quoteSeq := w.store.quotes.length } }

/-- `Quote.number` is unique. -/
def UniqueNumbers (store : Store) : Prop := (store.quotes.map fun q => q.quote.number).Nodup

instance (store : Store) : Decidable (UniqueNumbers store) := inferInstanceAs (Decidable (List.Nodup _))

/-- A request on the Prisma store: a write of a number that is taken fails. -/
def servePrisma (options : Options) (w : World) (request : Request) : World :=
  let served := serve options w.counted request
  if UniqueNumbers served.store then served else w

/-! ## Calls of `createQuote` and `deleteQuote` -/

def Operation.creates : Operation → Bool
  | createQuote .. => true
  | _ => false

/-- The quote that a call of `deleteQuote` names. -/
def Operation.deletes : Operation → Option Id
  | deleteQuote quoteId _ _ => some quoteId
  | _ => none

def Operation.CreatesOrDeletes (operation : Operation) : Prop :=
  operation.creates = true ∨ operation.deletes.isSome = true

instance (operation : Operation) : Decidable operation.CreatesOrDeletes := inferInstanceAs (Decidable (_ ∨ _))

theorem not_createsOrDeletes {operation : Operation} (hcreates : operation.creates = false)
    (hdeletes : operation.deletes = none) : ¬operation.CreatesOrDeletes := by
  unfold Operation.CreatesOrDeletes
  rw [hcreates, hdeletes]
  decide

/-- A new quote is handed a number that no quote has, and every write keeps the numbers unique. -/
def HandsFresh (options : Options) (w : World) (request : Request) : Prop :=
  (request.operation.creates = true → ∀ q ∈ w.store.quotes, q.quote.number ≠ w.store.countedNumber) ∧
    UniqueNumbers (serve options w.counted request).store

instance (options : Options) (w : World) (request : Request) : Decidable (HandsFresh options w request) :=
  inferInstanceAs (Decidable (_ ∧ _))

/-- If a quote is deleted, it is the newest: its number is the count. -/
def DeletesNewest (w : World) (request : Request) : Prop :=
  ∀ q ∈ w.store.quotes, request.operation.deletes = some q.id → q.quote.number = quoteNumber w.store.quotes.length

instance (w : World) (request : Request) : Decidable (DeletesNewest w request) :=
  inferInstanceAs (Decidable (∀ _ ∈ _, _))

/-! ## The numbers up to the count -/

/-- The quotes have different numbers, none beyond their count. -/
structure NumberedQuotes (quotes : List QuoteAggregate) : Prop where
  bounded : ∀ q ∈ quotes, ∃ n ≤ quotes.length, q.quote.number = quoteNumber n
  once : (quotes.map fun q => q.quote.number).Nodup

variable {options : Options} {w : World} {request : Request}

theorem NumberedQuotes.fresh {store : Store} (h : NumberedQuotes store.quotes) :
    ∀ q ∈ store.quotes, q.quote.number ≠ store.countedNumber := by
  intro q hq heq
  obtain ⟨n, hn, hnumber⟩ := h.bounded q hq
  have hnext : n = store.quotes.length + 1 := quoteNumber_inj (hnumber.symm.trans heq)
  omega

theorem upsert_new {record : QuoteAggregate} {quotes : List QuoteAggregate} (hnew : ∀ q ∈ quotes, q.id ≠ record.id) :
    Table.upsert QuoteAggregate.id record quotes = quotes ++ [record] := by
  induction quotes with
  | nil => rfl
  | cons q quotes ih =>
      rw [Table.upsert_cons, if_neg (hnew q List.mem_cons_self),
        ih fun other hother => hnew other (List.mem_cons_of_mem _ hother), List.cons_append]

theorem NumberedQuotes.append {store : Store} {record : QuoteAggregate} (h : NumberedQuotes store.quotes)
    (hnumber : record.quote.number = store.countedNumber) : NumberedQuotes (store.quotes ++ [record]) where
  bounded q hq := by
    rw [List.length_append, List.length_singleton]
    rcases List.mem_append.mp hq with hq | hq
    · obtain ⟨n, hn, hnumber⟩ := h.bounded q hq
      exact ⟨n, Nat.le_succ_of_le hn, hnumber⟩
    · obtain rfl := List.mem_singleton.mp hq
      exact ⟨_, le_refl _, hnumber⟩
  once := by
    rw [List.map_append, List.nodup_append]
    refine ⟨h.once, List.nodup_singleton _, fun number hmem other hother heq => ?_⟩
    obtain ⟨q, hq, rfl⟩ := List.mem_map.mp hmem
    obtain rfl := List.mem_singleton.mp hother
    exact h.fresh q hq (heq.trans hnumber)

/-- Without its newest quote the others' numbers are still up to the count. -/
theorem NumberedQuotes.erase {newest : QuoteAggregate} (hw : w.Indexed) (h : NumberedQuotes w.store.quotes)
    (hmem : newest ∈ w.store.quotes) (hnumber : newest.quote.number = quoteNumber w.store.quotes.length) :
    NumberedQuotes (Table.erase QuoteAggregate.id newest.id w.store.quotes) where
  bounded q hq := by
    obtain ⟨hq, hne⟩ := Table.mem_erase.mp hq
    obtain ⟨n, hn, hqnumber⟩ := h.bounded q hq
    have hother : n ≠ w.store.quotes.length := by
      rintro rfl
      exact hne (congrArg QuoteAggregate.id (List.inj_on_of_nodup_map h.once hq hmem (hqnumber.trans hnumber.symm)))
    have hlength : w.store.quotes.length ≤
        (newest :: Table.erase QuoteAggregate.id newest.id w.store.quotes).length := by
      refine ((List.Nodup.of_map _ h.once).subperm fun other hmore => ?_).length_le
      by_cases hsame : other.id = newest.id
      · rw [hw.eq_of_id hmore hmem hsame]
        exact List.mem_cons_self
      · exact List.mem_cons_of_mem _ (Table.mem_erase.mpr ⟨hmore, hsame⟩)
    rw [List.length_cons] at hlength
    exact ⟨n, by omega, hqnumber⟩
  once := h.once.sublist (List.filter_sublist.map _)

/-! ## Runs -/

theorem nextQuoteNumber_eq_ok {w' : World} {number : String} (h : nextQuoteNumber w = .ok number w') :
    number = quoteNumber (w.store.quoteSeq + 1) := by
  have hnext : nextQuoteNumber w = .ok (quoteNumber (w.store.quoteSeq + 1))
    { w with store := { w.store with quoteSeq := w.store.quoteSeq + 1 } } := rfl
  exact (EStateM.Result.ok.inj (hnext.symm.trans h)).1.symm

theorem number_of_draftQuote {env : Env} {customerId : Id} {ownerId : Option String} {inputs : List LineInput}
    {actor : Actor} {w' : World} {b : QuoteAggregate}
    (h : draftQuote env customerId ownerId inputs actor w.counted = .ok b w') :
    b.quote.number = w.store.countedNumber := by
  simp only [draftQuote, bind_eq_ok, read_eq_ok, orThrow_eq_ok, randomUUID_eq_ok, pure_eq_ok] at h
  obtain ⟨_, _, ⟨rfl, rfl⟩, customer, _, ⟨-, rfl⟩, _, _, ⟨rfl, rfl⟩, number, w₂, hnumber, _, _, ⟨rfl, rfl⟩,
      _, w₃, -, lines,
    _, -, rfl, -⟩ := h
  have hcounted := nextQuoteNumber_eq_ok hnumber
  show number = quoteNumber (w.store.quotes.length + 1)
  exact hcounted

theorem numberedQuotes_serve (hcall : request.operation.CreatesOrDeletes) (hw : w.Indexed)
    (h : NumberedQuotes w.store.quotes)
    (hnewest : DeletesNewest w request) : NumberedQuotes (serve options w.counted request).store.quotes := by
  cases effect_of_serve options w.counted request with
  | kept hquotes hnext =>
      rw [hquotes]
      exact h
  | edited hop =>
      rw [hop] at hcall
      exact absurd hcall (not_createsOrDeletes rfl rfl)
  | @created customerId ownerId inputs actor b w₁ pairs hop hdraft hpairs htail hquotes =>
      have hnew : ∀ q ∈ w.store.quotes, q.id ≠ (savedRecord (request.env options) w₁.store b pairs).id :=
        fun q hq heq =>
        Nat.ne_of_lt (hw.fresh q hq) (heq.trans (draftQuote_eq_ok hdraft).id)
      rw [hquotes]
      show NumberedQuotes (Table.upsert QuoteAggregate.id _ w.store.quotes)
      rw [upsert_new hnew]
      have hnumber := number_of_draftQuote hdraft
      exact h.append hnumber
  | assessed hop =>
      rw [hop] at hcall
      exact absurd hcall (not_createsOrDeletes rfl rfl)
  | deleted hop hq hid hunlocked hstatus hworld =>
      have hdeletes : request.operation.deletes = some _ := congrArg Operation.deletes hop
      have hnumber := hnewest _ hq.mem (hdeletes.trans (congrArg some hid.symm))
      rw [hworld, ← hid]
      exact @NumberedQuotes.erase w _ hw h hq.mem hnumber

/-- What a call keeps that deletes only the newest quote, and what it does. -/
theorem numberedQuotes_servePrisma (hcall : request.operation.CreatesOrDeletes)
    (h : w.Indexed ∧ NumberedQuotes w.store.quotes) (hnewest : DeletesNewest w request) :
    ((servePrisma options w request).Indexed ∧ NumberedQuotes (servePrisma options w request).store.quotes) ∧
      HandsFresh options w request := by
  obtain ⟨hw, hnumbered⟩ := h
  have hserved := @numberedQuotes_serve options w request hcall hw hnumbered hnewest
  have hcounted : w.counted.Indexed := ⟨hw.distinct, hw.fresh⟩
  have hunique : UniqueNumbers (serve options w.counted request).store := hserved.once
  have hserve : servePrisma options w request = serve options w.counted request := if_pos hunique
  rw [hserve]
  exact ⟨⟨hcounted.serve options request, hserved⟩, fun _ => hnumbered.fresh, hunique⟩

/-- In a run of calls that delete only the newest quote, every new quote gets a number that no stored quote has,
and no write breaks the unique constraint. -/
theorem fresh_numbers (options : Options) (w : World) (hfresh : w.Fresh) (requests : List Request)
    (hcalls : ∀ request ∈ requests, request.operation.CreatesOrDeletes)
    (hnewest : Machine.Meets (servePrisma options) DeletesNewest w requests) :
    Machine.Meets (servePrisma options) (HandsFresh options) w requests := by
  have hstart : w.Indexed ∧ NumberedQuotes w.store.quotes := by
    refine ⟨hfresh.indexed, ?_⟩
    rw [hfresh.quotes]
    exact ⟨fun q hq => absurd hq List.not_mem_nil, List.nodup_nil⟩
  have hcall : Machine.Meets (servePrisma options) (fun _ request => request.operation.CreatesOrDeletes) w requests :=
    Machine.meets_of_forall (fun request hmem _ => hcalls request hmem) w
  have hstep (v : World) (request : Request) (h : v.Indexed ∧ NumberedQuotes v.store.quotes)
      (hmeets : request.operation.CreatesOrDeletes ∧ DeletesNewest v request) :=
    @numberedQuotes_servePrisma options v request hmeets.1 h hmeets.2
  exact Machine.meets_of_invariant hstep hstart (Machine.meets_and.mpr ⟨hcall, hnewest⟩)

/-- Two quotes are created and one of them is deleted before a third is created. -/
def replacedQuote (deleted : Id) : List Request :=
  [{ operation := .createQuote 1 none [] administrator }, { operation := .createQuote 1 none [] administrator },
   { operation := .deleteQuote deleted administrator 1 }, { operation := .createQuote 1 none [] administrator }]

theorem fresh_numbers_newest :
    Machine.Meets (servePrisma plainOptions) (HandsFresh plainOptions) startWorld (replacedQuote 102) :=
  fresh_numbers plainOptions startWorld startWorld_fresh (replacedQuote 102) (by decide) (by decide +kernel)

/-- With the first of the two deleted, the third quote is handed the number of the second. -/
theorem number_handed_twice :
    (∀ request ∈ replacedQuote 100, request.operation.CreatesOrDeletes) ∧
      ¬Machine.Meets (servePrisma plainOptions) (HandsFresh plainOptions) startWorld (replacedQuote 100) :=
  ⟨by decide, by decide +kernel⟩

end DealFlow360

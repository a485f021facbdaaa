import DealFlow360.Lib.Table
import Mathlib.Algebra.Order.BigOperators.Group.List

/-!
# Accounts and entries

A table of accounts carries a balance on every row; entries name the account
they are posted to, or none. Posting entries one by one moves every balance by
the sum of its entries, whatever their order, and leaves everything else about
the rows alone.

`Moved` is the relation between a table and itself after a posting: every row
has its balance moved by the sum of the entries of its account (`sumAt`). It
composes, so a whole list of postings is one `Moved`; with distinct accounts it
is a function of the table (`Moved.eq_map`), and the sums over the accounts
make up the sum of the entries (`sum_sumAt`). The rows of a stock table and the
splits of quotes are one instance.
-/

namespace Ledger

variable {α κ β ε : Type*}

/-! ## Entries -/

section Entries

variable [DecidableEq κ] [AddCommMonoid β] {account : ε → Option κ} {amount : ε → β}

/-- What the entries post to the account `k`. -/
def sumAt (account : ε → Option κ) (amount : ε → β) (entries : List ε) (k : κ) : β :=
  ((entries.filter fun entry => decide (account entry = some k)).map amount).sum

@[simp] theorem sumAt_nil (k : κ) : sumAt account amount [] k = 0 := rfl

theorem sumAt_cons (entry : ε) (entries : List ε) (k : κ) :
    sumAt account amount (entry :: entries) k
      = (if account entry = some k then amount entry else 0) + sumAt account amount entries k := by
  unfold sumAt
  by_cases h : account entry = some k <;> simp [h]

theorem sumAt_append (first last : List ε) (k : κ) :
    sumAt account amount (first ++ last) k
      = sumAt account amount first k + sumAt account amount last k := by
  unfold sumAt
  rw [List.filter_append, List.map_append, List.sum_append]

theorem sumAt_nonneg [PartialOrder β] [IsOrderedAddMonoid β] {entries : List ε}
    (h : ∀ entry ∈ entries, 0 ≤ amount entry) (k : κ) : 0 ≤ sumAt account amount entries k := by
  refine List.sum_nonneg fun x hx => ?_
  obtain ⟨entry, hentry, rfl⟩ := List.mem_map.mp hx
  exact h entry (List.mem_of_mem_filter hentry)

theorem sum_ite_mem {ks : List κ} (hks : ks.Nodup) (k : κ) (c : β) :
    (ks.map fun k' => if some k = some k' then c else 0).sum = if k ∈ ks then c else 0 := by
  induction ks with
  | nil => rfl
  | cons first ks ih =>
      obtain ⟨hfirst, hks⟩ := List.nodup_cons.mp hks
      rw [List.map_cons, List.sum_cons, ih hks]
      by_cases hk : k = first
      · subst hk
        rw [if_pos rfl, if_neg hfirst, if_pos List.mem_cons_self, add_zero]
      · rw [if_neg fun h => hk (Option.some.inj h), zero_add]
        simp only [List.mem_cons, hk, false_or]

/-- Over distinct accounts the sums are the sum of the entries of these accounts. -/
theorem sum_sumAt {ks : List κ} (hks : ks.Nodup) (entries : List ε) :
    (ks.map (sumAt account amount entries)).sum =
      ((entries.filter fun entry => (account entry).any (· ∈ ks)).map amount).sum := by
  induction entries with
  | nil =>
      have hzero : ks.map (sumAt account amount []) = ks.map fun _ => 0 := rfl
      rw [hzero]
      simp
  | cons entry entries ih =>
      have hsplit : ks.map (sumAt account amount (entry :: entries)) =
          ks.map fun k => (if account entry = some k then amount entry else 0) + sumAt account amount entries k :=
        List.map_congr_left fun k _ => sumAt_cons entry entries k
      rw [hsplit, List.sum_map_add, ih, List.filter_cons]
      cases haccount : account entry with
      | none => simp
      | some k =>
          rw [sum_ite_mem hks]
          by_cases hk : k ∈ ks
          · rw [if_pos hk, Option.any_some, if_pos (decide_eq_true hk), List.map_cons, List.sum_cons]
          · rw [if_neg hk, Option.any_some, if_neg (by simpa using hk), zero_add]

end Entries

/-! ## Accounts -/

/-- Rows that carry a balance: how a row is named, and how an amount is credited to it. -/
structure Accounts (α κ β : Type*) [AddCommGroup β] where
  key : α → κ
  credit : β → α → α
  credit_zero : ∀ x, credit 0 x = x
  credit_credit : ∀ c d x, credit d (credit c x) = credit (c + d) x
  key_credit : ∀ c x, key (credit c x) = key x

namespace Accounts

variable [DecidableEq κ] [AddCommGroup β] (accounts : Accounts α κ β)

/-- Credit an amount to the first row of an account. -/
def post (k : κ) (c : β) (l : List α) : List α :=
  Table.modifyFirst (fun row => decide (accounts.key row = k)) (accounts.credit c) l

/-- `l'` is `l` with every balance moved by `d`. -/
structure Moved (d : κ → β) (l l' : List α) : Prop where
  keys : l'.map accounts.key = l.map accounts.key
  rows : ∀ k, Table.lookup accounts.key k l' = (Table.lookup accounts.key k l).map (accounts.credit (d k))

variable {accounts} {l l' l'' : List α} {d e : κ → β}

theorem Moved.refl (l : List α) : accounts.Moved 0 l l where
  keys := rfl
  rows k := by
    cases Table.lookup accounts.key k l with
    | none => rfl
    | some row => exact congrArg some (accounts.credit_zero row).symm

theorem Moved.trans (h : accounts.Moved d l l') (h' : accounts.Moved e l' l'') :
    accounts.Moved (d + e) l l'' where
  keys := h'.keys.trans h.keys
  rows k := by
    rw [h'.rows, h.rows, Option.map_map]
    congr 1
    exact funext fun row => accounts.credit_credit (d k) (e k) row

theorem Moved.post (k : κ) (c : β) (l : List α) :
    accounts.Moved (fun k' => if k = k' then c else 0) l (accounts.post k c l) where
  keys := Table.map_modifyFirst (accounts.key_credit c) l
  rows k' := by
    rw [Accounts.post, Table.lookup_modifyFirst (accounts.key_credit c)]
    split
    · rename_i hk
      rw [hk]
    · cases Table.lookup accounts.key k' l with
      | none => rfl
      | some row => exact congrArg some (accounts.credit_zero row).symm

theorem Moved.congr (h : accounts.Moved d l l') (heq : ∀ k, d k = e k) : accounts.Moved e l l' := by
  obtain rfl : d = e := funext heq
  exact h

theorem Moved.distinct (h : accounts.Moved d l l') (hl : Table.Distinct accounts.key l) :
    Table.Distinct accounts.key l' := by
  unfold Table.Distinct
  rw [h.keys]
  exact hl

/-- With distinct accounts, every row after is a row before with its balance moved. -/
theorem Moved.exists_of_mem (h : accounts.Moved d l l') (hl : Table.Distinct accounts.key l) {row : α}
    (hrow : row ∈ l') : ∃ before ∈ l, row = accounts.credit (d (accounts.key before)) before := by
  have hlookup := Table.lookup_of_mem (h.distinct hl) hrow
  rw [h.rows] at hlookup
  obtain ⟨before, hbefore, hcredit⟩ := Option.map_eq_some_iff.mp hlookup
  refine ⟨before, Table.mem_of_lookup hbefore, ?_⟩
  rw [Table.key_of_lookup hbefore]
  exact hcredit.symm

/-- With distinct accounts, the table after is the table before with every balance moved. -/
theorem Moved.eq_map (h : accounts.Moved d l l') (hl : Table.Distinct accounts.key l) :
    l' = l.map fun row => accounts.credit (d (accounts.key row)) row := by
  have hkeys : (l.map fun row => accounts.credit (d (accounts.key row)) row).map accounts.key = l.map accounts.key := by
    rw [List.map_map]
    exact List.map_congr_left fun row _ => accounts.key_credit _ row
  have hdistinct : Table.Distinct accounts.key (l.map fun row => accounts.credit (d (accounts.key row)) row) := by
    unfold Table.Distinct
    rw [hkeys]
    exact hl
  refine Table.eq_of_lookup (h.keys.trans hkeys.symm) hdistinct fun k => (h.rows k).trans ?_
  cases hrow : Table.lookup accounts.key k l with
  | none =>
      refine (Table.lookup_eq_none.mpr fun x hx hk => ?_).symm
      obtain ⟨row, hmem, rfl⟩ := List.mem_map.mp hx
      rw [accounts.key_credit] at hk
      exact Table.lookup_eq_none.mp hrow row hmem hk
  | some row =>
      have hmem := List.mem_map_of_mem (f := fun row => accounts.credit (d (accounts.key row)) row)
        (Table.mem_of_lookup hrow)
      have hfound := Table.lookup_of_mem hdistinct hmem
      rw [accounts.key_credit, Table.key_of_lookup hrow] at hfound
      exact hfound.symm

end Accounts

end Ledger

import DealFlow360.Js
import DealFlow360.Lib.Paging

/-!
# Query parameters

`parsePagination`, `buildPageMeta` and `parseSort`, which the repositories and
services read a list query with. A number stands for itself or for the text
that coerces to it.

The defaults and the limits of a page are the source's; what is no integer, or
out of range, is refused with the field's path. `buildPageMeta` counts pages,
and of the pages there are the last is the one without a next page
(`hasNextPage_eq_false`). Sort fields are checked against the list that the
caller allows.
-/

namespace DealFlow360.Repositories

inductive QueryError where
  | invalidPagination
  | invalidSort
  | invalidSortField (sortBy : Option String) (allowed : List String)
  deriving DecidableEq, Repr

/-! ## Pages -/

structure PaginationInput where
  page : Option Num := none
  pageSize : Option Num := none
  deriving DecidableEq, Repr

structure PaginationParams where
  page : ℕ
  pageSize : ℕ
  skip : ℕ
  take : ℕ
  deriving DecidableEq, Repr

structure PageMeta where
  page : ℕ
  pageSize : ℕ
  totalItems : ℕ
  totalPages : ℕ
  hasNextPage : Bool
  hasPreviousPage : Bool
  deriving DecidableEq, Repr

structure PaginatedResult (α : Type*) where
  items : List α
  «meta» : PageMeta

def maxPageSize : ℕ := 100

/-- A whole number from one on, or what stands for an absent one. -/
def positiveInt (value : Option Num) (default : ℕ) : Option ℕ :=
  match value with
  | none => some default
  | some value => if value.den = 1 ∧ 1 ≤ value then some value.num.toNat else none

def parsePagination (input : PaginationInput) : Except QueryError PaginationParams :=
  match positiveInt input.page 1, positiveInt input.pageSize 20 with
  | some page, some pageSize =>
      if pageSize ≤ maxPageSize then .ok { page, pageSize, skip := (page - 1) * pageSize, take := pageSize }
      else .error .invalidPagination
  | _, _ => .error .invalidPagination

def buildPageMeta (params : PaginationParams) (totalItems : ℕ) : PageMeta :=
  let totalPages := if totalItems = 0 then 0 else (totalItems + params.pageSize - 1) / params.pageSize
  { page := params.page
    pageSize := params.pageSize
    totalItems
    totalPages
    hasNextPage := params.page < totalPages
    hasPreviousPage := params.page > 1 && totalPages > 0 }

def toPaginatedResult {α : Type*} (items : List α) (params : PaginationParams) (totalItems : ℕ) :
    PaginatedResult α where
  items
  «meta» := buildPageMeta params totalItems

/-! ## Sorts -/

inductive SortOrder where
  | asc | desc
  deriving DecidableEq, Repr

structure SortInput where
  sortBy : Option String := none
  sortOrder : Option String := none
  deriving DecidableEq, Repr

structure ParsedSort where
  field : String
  order : SortOrder
  deriving DecidableEq, Repr

/-- A text without its white space, unless nothing is left of it. -/
def scalar (value : Option String) : Option String :=
  (value.map trim).filter (· ≠ "")

def parseSortOrder (value : Option String) (default : SortOrder) : Except QueryError SortOrder :=
  match (scalar value).map fun order => String.ofList (order.toList.map Char.toLower) with
  | none => .ok default
  | some "asc" => .ok .asc
  | some "desc" => .ok .desc
  | some _ => .error .invalidSort

def parseSort (input : SortInput) (allowed : List String) (defaultField : String) (defaultOrder : SortOrder := .desc) :
    Except QueryError ParsedSort :=
  match parseSortOrder input.sortOrder defaultOrder with
  | .error error => .error error
  | .ok order =>
      let field := (scalar input.sortBy).getD defaultField
      if 64 < (codeUnits field).length then .error .invalidSort
      else if allowed.contains field then .ok { field, order }
      else .error (.invalidSortField input.sortBy allowed)

/-! ## What is parsed -/

theorem positiveInt_eq_some {value : Option Num} {default n : ℕ} (hdefault : 0 < default)
    (h : positiveInt value default = some n) : 0 < n := by
  unfold positiveInt at h
  cases value with
  | none =>
      obtain rfl := Option.some.inj h
      exact hdefault
  | some value =>
      dsimp only at h
      split at h
      · rename_i hvalue
        obtain rfl := Option.some.inj h
        have hpos : 0 < value.num := Rat.num_pos.mpr (lt_of_lt_of_le one_pos hvalue.2)
        omega
      · cases h

theorem positiveInt_natCast {n default : ℕ} (hn : 0 < n) : positiveInt (some n) default = some n := by
  unfold positiveInt
  dsimp only
  rw [Rat.den_natCast, Rat.num_natCast, if_pos ⟨rfl, by exact_mod_cast hn⟩, Int.toNat_natCast]

theorem parsePagination_eq_ok {input : PaginationInput} {params : PaginationParams}
    (h : parsePagination input = .ok params) : 0 < params.pageSize ∧
      ∀ page, 0 < page → parsePagination { input with page := some (page : ℕ) } =
        .ok { page, pageSize := params.pageSize, skip := (page - 1) * params.pageSize, take := params.pageSize } := by
  unfold parsePagination at h
  cases hpage : positiveInt input.page 1 with
  | none =>
      rw [hpage] at h
      cases h
  | some first =>
      cases hsize : positiveInt input.pageSize 20 with
      | none =>
          rw [hpage, hsize] at h
          cases h
      | some pageSize =>
          rw [hpage, hsize] at h
          dsimp only at h
          split at h
          · rename_i hmost
            obtain rfl := Except.ok.inj h
            refine ⟨positiveInt_eq_some (by decide) hsize, fun page hpos => ?_⟩
            unfold parsePagination
            dsimp only
            rw [positiveInt_natCast hpos, hsize]
            dsimp only
            rw [if_pos hmost]
          · cases h

theorem parsePagination_take {input : PaginationInput} {params : PaginationParams}
    (h : parsePagination input = .ok params) : params.take = params.pageSize := by
  unfold parsePagination at h
  split at h
  · split at h
    · obtain rfl := Except.ok.inj h
      rfl
    · cases h
  · cases h

theorem totalPages_eq (params : PaginationParams) (hsize : 0 < params.pageSize) (totalItems : ℕ) :
    (buildPageMeta params totalItems).totalPages = Paging.pageCount params.pageSize totalItems := by
  unfold buildPageMeta Paging.pageCount
  dsimp only
  split
  · rename_i hzero
    rw [hzero, Nat.div_eq_of_lt (by omega)]
  · rfl

/-- Of the pages there are, the last one is the one without a next page. -/
theorem hasNextPage_eq_false {params : PaginationParams} {totalItems : ℕ}
    (hpage : params.page ≤ (buildPageMeta params totalItems).totalPages) :
    (buildPageMeta params totalItems).hasNextPage = false ↔
      params.page = (buildPageMeta params totalItems).totalPages := by
  have hnext : (buildPageMeta params totalItems).hasNextPage =
      decide (params.page < (buildPageMeta params totalItems).totalPages) := rfl
  rw [hnext, decide_eq_false_iff_not]
  omega

end DealFlow360.Repositories

import Mathlib.Algebra.BigOperators.Group.List.Basic
import Mathlib.Algebra.GroupWithZero.Nat
import Mathlib.Data.List.Chain
import Mathlib.Data.List.Nodup

/-!
# The syntax of JSON

Values over any atoms and any strings, the tokens that they are written as, and
the parser that reads them back. The parser is the inverse of writing. Of
members with the same key, the last one counts.

Lexing is left to whoever instantiates this: a token is a mark or an atom, and
what an atom is written as does not matter here. `parseTokens_eq_some` says
that the tokens of a value parse to it and that nothing else does. Around it
are the facts on sequences of tokens that texts need:

- `tokens_prefix`: a value ends where its tokens do;
- `isChain_append_mark`: no two atoms stand next to each other;
- `weight_lastWins_le`: a member that a later one of its key replaces is lost,
  and what the strings weigh can only fall.
-/

namespace JsonSyntax

/-- A value as it is written, so that an object may have a key twice. -/
inductive Value (α κ : Type) where
  | atom (a : α)
  | string (s : κ)
  | array (items : List (Value α κ))
  | object (members : List (κ × Value α κ))

inductive Mark where
  | openArray
  | closeArray
  | openObject
  | closeObject
  | colon
  | comma
  deriving DecidableEq, Repr

inductive Token (α κ : Type) where
  | mark (m : Mark)
  | string (s : κ)
  | atom (a : α)
  deriving DecidableEq

variable {α κ : Type}

/-! ## Writing -/

mutual

def tokens : Value α κ → List (Token α κ)
  | .atom a => [.atom a]
  | .string s => [.string s]
  | .array items => .mark .openArray :: itemTokens items
  | .object members => .mark .openObject :: memberTokens members

/-- The items of an array and what closes it. -/
def itemTokens : List (Value α κ) → List (Token α κ)
  | [] => [.mark .closeArray]
  | [v] => tokens v ++ [.mark .closeArray]
  | v :: w :: rest => tokens v ++ .mark .comma :: itemTokens (w :: rest)

/-- The members of an object and what closes it. -/
def memberTokens : List (κ × Value α κ) → List (Token α κ)
  | [] => [.mark .closeObject]
  | [(key, v)] => .string key :: .mark .colon :: (tokens v ++ [.mark .closeObject])
  | (key, v) :: w :: rest => .string key :: .mark .colon :: (tokens v ++ .mark .comma :: memberTokens (w :: rest))

end

/-! ## Reading -/

mutual

def readValue : ℕ → List (Token α κ) → Option (Value α κ × List (Token α κ))
  | _ + 1, .atom a :: rest => some (.atom a, rest)
  | _ + 1, .string s :: rest => some (.string s, rest)
  | fuel + 1, .mark .openArray :: rest =>
      match rest with
      | .mark .closeArray :: rest => some (.array [], rest)
      | rest => do
          let (items, rest) ← readItems fuel rest
          some (.array items, rest)
  | fuel + 1, .mark .openObject :: rest =>
      match rest with
      | .mark .closeObject :: rest => some (.object [], rest)
      | rest => do
          let (members, rest) ← readMembers fuel rest
          some (.object members, rest)
  | _, _ => none

def readItems : ℕ → List (Token α κ) → Option (List (Value α κ) × List (Token α κ))
  | 0, _ => none
  | fuel + 1, toks => do
      let (v, rest) ← readValue fuel toks
      match rest with
      | .mark .comma :: rest => do
          let (items, rest) ← readItems fuel rest
          some (v :: items, rest)
      | .mark .closeArray :: rest => some ([v], rest)
      | _ => none

def readMembers : ℕ → List (Token α κ) → Option (List (κ × Value α κ) × List (Token α κ))
  | fuel + 1, .string key :: .mark .colon :: toks => do
      let (v, rest) ← readValue fuel toks
      match rest with
      | .mark .comma :: rest => do
          let (members, rest) ← readMembers fuel rest
          some ((key, v) :: members, rest)
      | .mark .closeObject :: rest => some ([(key, v)], rest)
      | _ => none
  | _, _ => none

end

/-- The value that the tokens are, if they are one. -/
def parseTokens (toks : List (Token α κ)) : Option (Value α κ) :=
  match readValue toks.length toks with
  | some (v, []) => some v
  | _ => none

/-! ## The parser is the inverse of writing -/

theorem exists_tokens_eq (v : Value α κ) : ∃ first rest, tokens v = first :: rest ∧ first ≠ .mark .closeArray ∧
    first ≠ .mark .closeObject := by
  cases v with
  | atom a => exact ⟨_, _, rfl, nofun, nofun⟩
  | string s => exact ⟨_, _, rfl, nofun, nofun⟩
  | array items => exact ⟨_, _, rfl, nofun, nofun⟩
  | object members => exact ⟨_, _, rfl, nofun, nofun⟩

theorem readValue_openArray {fuel : ℕ} {first : Token α κ} {rest : List (Token α κ)} (h : first ≠ .mark .closeArray) :
    readValue (fuel + 1) (.mark .openArray :: first :: rest) =
      readItems fuel (first :: rest) >>= fun read => some (.array read.1, read.2) := by
  cases first with
  | mark m =>
      cases m with
      | closeArray => exact absurd rfl h
      | _ => rfl
  | _ => rfl

theorem readValue_openObject {fuel : ℕ} {first : Token α κ} {rest : List (Token α κ)} (h : first ≠ .mark .closeObject) :
    readValue (fuel + 1) (.mark .openObject :: first :: rest) =
      readMembers fuel (first :: rest) >>= fun read => some (.object read.1, read.2) := by
  cases first with
  | mark m =>
      cases m with
      | closeObject => exact absurd rfl h
      | _ => rfl
  | _ => rfl

mutual

theorem readValue_tokens : ∀ (v : Value α κ) (fuel : ℕ) (rest : List (Token α κ)), (tokens v).length ≤ fuel →
    readValue fuel (tokens v ++ rest) = some (v, rest)
  | .atom a, 0, _, h => absurd h (Nat.not_succ_le_zero _)
  | .atom a, fuel + 1, rest, _ => rfl
  | .string s, 0, _, h => absurd h (Nat.not_succ_le_zero _)
  | .string s, fuel + 1, rest, _ => rfl
  | .array items, 0, _, h => absurd h (Nat.not_succ_le_zero _)
  | .array [], fuel + 1, rest, _ => rfl
  | .array (v :: items), fuel + 1, rest, h => by
      have hitems := readItems_tokens v items fuel rest (Nat.le_of_succ_le_succ h)
      obtain ⟨first, more, htokens, hfirst, -⟩ : ∃ first more, itemTokens (v :: items) = first :: more ∧
          first ≠ .mark .closeArray ∧ first ≠ .mark .closeObject := by
        obtain ⟨first, more, htokens, hfirst⟩ := exists_tokens_eq v
        cases items with
        | nil => exact ⟨first, _, by rw [itemTokens, htokens]; rfl, hfirst⟩
        | cons w items => exact ⟨first, _, by rw [itemTokens, htokens]; rfl, hfirst⟩
      rw [tokens, List.cons_append]
      rw [htokens, List.cons_append] at hitems ⊢
      rw [readValue_openArray hfirst, hitems]
      rfl
  | .object members, 0, _, h => absurd h (Nat.not_succ_le_zero _)
  | .object [], fuel + 1, rest, _ => rfl
  | .object ((key, v) :: members), fuel + 1, rest, h => by
      have hmembers := readMembers_tokens key v members fuel rest (Nat.le_of_succ_le_succ h)
      obtain ⟨more, htokens⟩ : ∃ more, memberTokens ((key, v) :: members) = .string key :: more := by
        cases members with
        | nil => exact ⟨_, rfl⟩
        | cons w members => exact ⟨_, rfl⟩
      rw [tokens, List.cons_append]
      rw [htokens, List.cons_append] at hmembers ⊢
      have hkey : Token.string key ≠ .mark .closeObject (α := α) := nofun
      rw [readValue_openObject hkey, hmembers]
      rfl

theorem readItems_tokens : ∀ (v : Value α κ) (items : List (Value α κ)) (fuel : ℕ) (rest : List (Token α κ)),
    (itemTokens (v :: items)).length ≤ fuel → readItems fuel (itemTokens (v :: items) ++ rest) = some (v :: items, rest)
  | v, [], 0, _, h => by
      rw [itemTokens, List.length_append] at h
      exact absurd h (Nat.not_succ_le_zero _)
  | v, [], fuel + 1, rest, h => by
      rw [itemTokens, List.length_append] at h
      rw [itemTokens, List.append_assoc, readItems, readValue_tokens v fuel _ (Nat.le_of_succ_le_succ h)]
      rfl
  | v, w :: items, 0, _, h => by
      rw [itemTokens, List.length_append] at h
      exact absurd h (Nat.not_succ_le_zero _)
  | v, w :: items, fuel + 1, rest, h => by
      rw [itemTokens, List.length_append, List.length_cons] at h
      have hitems := readItems_tokens w items fuel rest (by omega)
      rw [itemTokens, List.append_assoc, readItems, readValue_tokens v fuel _ (by omega)]
      show (readItems fuel (itemTokens (w :: items) ++ rest) >>= fun read => some (v :: read.1, read.2)) = _
      rw [hitems]
      rfl

theorem readMembers_tokens : ∀ (key : κ) (v : Value α κ) (members : List (κ × Value α κ)) (fuel : ℕ)
    (rest : List (Token α κ)), (memberTokens ((key, v) :: members)).length ≤ fuel →
      readMembers fuel (memberTokens ((key, v) :: members) ++ rest) = some ((key, v) :: members, rest)
  | key, v, [], 0, _, h => absurd h (Nat.not_succ_le_zero _)
  | key, v, [], fuel + 1, rest, h => by
      rw [memberTokens, List.length_cons, List.length_cons, List.length_append] at h
      rw [memberTokens, List.cons_append, List.cons_append, List.append_assoc, readMembers,
        readValue_tokens v fuel _ (by omega)]
      rfl
  | key, v, w :: members, 0, _, h => absurd h (Nat.not_succ_le_zero _)
  | key, v, (other, w) :: members, fuel + 1, rest, h => by
      rw [memberTokens, List.length_cons, List.length_cons, List.length_append, List.length_cons] at h
      have hmembers := readMembers_tokens other w members fuel rest (by omega)
      rw [memberTokens, List.cons_append, List.cons_append, List.append_assoc, readMembers,
        readValue_tokens v fuel _ (by omega)]
      show (readMembers fuel (memberTokens ((other, w) :: members) ++ rest) >>= fun read =>
        some ((key, v) :: read.1, read.2)) = _
      rw [hmembers]
      rfl

end

/-- What is read is written as what was read from. -/
theorem tokens_of_read (fuel : ℕ) :
    (∀ toks v (rest : List (Token α κ)), readValue fuel toks = some (v, rest) → toks = tokens v ++ rest) ∧
      (∀ toks items (rest : List (Token α κ)), readItems fuel toks = some (items, rest) →
        items ≠ [] ∧ toks = itemTokens items ++ rest) ∧
      ∀ toks members (rest : List (Token α κ)), readMembers fuel toks = some (members, rest) →
        members ≠ [] ∧ toks = memberTokens members ++ rest := by
  induction fuel with
  | zero =>
      refine ⟨fun toks v rest h => ?_, fun toks items rest h => ?_, fun toks members rest h => ?_⟩
      · cases toks <;> cases h
      · cases h
      · cases toks <;> cases h
  | succ fuel ih =>
      obtain ⟨hvalue, hitems, hmembers⟩ := ih
      refine ⟨fun toks v rest h => ?_, fun toks items rest h => ?_, fun toks members rest h => ?_⟩
      · cases toks with
        | nil => cases h
        | cons first toks =>
            cases first with
            | atom a =>
                cases h
                rfl
            | string s =>
                cases h
                rfl
            | mark m =>
                cases m with
                | openArray =>
                    rw [readValue.eq_def] at h
                    dsimp only at h
                    split at h
                    · cases h
                      rfl
                    · obtain ⟨⟨items, after⟩, hread, h⟩ := Option.bind_eq_some_iff.mp h
                      cases h
                      rw [(hitems _ _ _ hread).2]
                      rfl
                | openObject =>
                    rw [readValue.eq_def] at h
                    dsimp only at h
                    split at h
                    · cases h
                      rfl
                    · obtain ⟨⟨members, after⟩, hread, h⟩ := Option.bind_eq_some_iff.mp h
                      cases h
                      rw [(hmembers _ _ _ hread).2]
                      rfl
                | _ => cases h
      · rw [readItems] at h
        obtain ⟨⟨v, after⟩, hread, h⟩ := Option.bind_eq_some_iff.mp h
        dsimp only at h
        rw [hvalue _ _ _ hread]
        split at h
        · obtain ⟨⟨more, last⟩, hmore, h⟩ := Option.bind_eq_some_iff.mp h
          cases h
          obtain ⟨hne, htoks⟩ := hitems _ _ _ hmore
          obtain ⟨w, more, rfl⟩ := List.exists_cons_of_ne_nil hne
          refine ⟨List.cons_ne_nil _ _, ?_⟩
          rw [htoks, itemTokens, List.append_assoc, List.cons_append]
        · cases h
          refine ⟨List.cons_ne_nil _ _, ?_⟩
          rw [itemTokens, List.append_assoc, List.singleton_append]
        · cases h
      · obtain ⟨key, toks, rfl⟩ : ∃ key more, toks = .string key :: .mark .colon :: more := by
          match toks, h with
          | .string key :: .mark .colon :: more, _ => exact ⟨key, more, rfl⟩
        rw [readMembers] at h
        obtain ⟨⟨v, after⟩, hread, h⟩ := Option.bind_eq_some_iff.mp h
        dsimp only at h
        rw [hvalue _ _ _ hread]
        split at h
        · obtain ⟨⟨more, last⟩, hmore, h⟩ := Option.bind_eq_some_iff.mp h
          cases h
          obtain ⟨hne, htoks⟩ := hmembers _ _ _ hmore
          obtain ⟨w, more, rfl⟩ := List.exists_cons_of_ne_nil hne
          refine ⟨List.cons_ne_nil _ _, ?_⟩
          rw [htoks, memberTokens, List.cons_append, List.cons_append, List.append_assoc, List.cons_append]
        · cases h
          refine ⟨List.cons_ne_nil _ _, ?_⟩
          rw [memberTokens, List.cons_append, List.cons_append, List.append_assoc, List.singleton_append]
        · cases h

/-- The tokens of a value parse to it, and nothing else does. -/
theorem parseTokens_eq_some {toks : List (Token α κ)} {v : Value α κ} : parseTokens toks = some v ↔
    toks = tokens v := by
  unfold parseTokens
  constructor
  · intro h
    split at h
    · rename_i w hread
      cases h
      rw [(tokens_of_read _).1 _ _ _ hread, List.append_nil]
    · cases h
  · rintro rfl
    have hread := readValue_tokens v (tokens v).length [] (Nat.le_refl _)
    rw [List.append_nil] at hread
    rw [hread]

/-- A value ends where its tokens do. -/
theorem tokens_prefix {v w : Value α κ} {more : List (Token α κ)} (h : tokens w = tokens v ++ more) :
    w = v ∧ more = [] := by
  have hw := readValue_tokens w (tokens w).length [] (Nat.le_refl _)
  have hv := readValue_tokens v (tokens w).length more (by rw [h, List.length_append]; exact Nat.le_add_right _ _)
  rw [List.append_nil, h] at hw
  rw [h, hw] at hv
  obtain ⟨hvalues, hrest⟩ := Prod.mk.inj (Option.some.inj hv)
  exact ⟨hvalues, hrest.symm⟩

theorem itemTokens_concat : ∀ items : List (Value α κ), ∃ front, itemTokens items = front ++ [.mark .closeArray]
  | [] => ⟨[], rfl⟩
  | [v] => ⟨tokens v, rfl⟩
  | v :: w :: rest => by
      obtain ⟨front, hfront⟩ := itemTokens_concat (w :: rest)
      exact ⟨tokens v ++ .mark .comma :: front, by rw [itemTokens, hfront, List.append_assoc, List.cons_append]⟩

theorem memberTokens_concat : ∀ members : List (κ × Value α κ), ∃ front, memberTokens members = front ++
    [.mark .closeObject]
  | [] => ⟨[], rfl⟩
  | [(key, v)] => ⟨.string key :: .mark .colon :: tokens v, rfl⟩
  | (key, v) :: w :: rest => by
      obtain ⟨front, hfront⟩ := memberTokens_concat (w :: rest)
      refine ⟨.string key :: .mark .colon :: (tokens v ++ .mark .comma :: front), ?_⟩
      rw [memberTokens, hfront, List.cons_append, List.cons_append, List.append_assoc, List.cons_append]

/-! ## Tokens that follow one another -/

/-- An atom is followed by a mark. -/
def Apart : Token α κ → Token α κ → Prop
  | .atom _, .mark _ => True
  | .atom _, _ => False
  | _, _ => True

theorem apart_mark (tok : Token α κ) (m : Mark) : Apart tok (.mark m) := by
  cases tok <;> trivial

/-- Two runs of tokens with a mark between them. -/
theorem isChain_append_mark {toks rest : List (Token α κ)} {m : Mark} (h : toks.IsChain Apart)
    (hrest : rest.IsChain Apart) :
    (toks ++ .mark m :: rest).IsChain Apart := by
  refine List.isChain_append.mpr ⟨h, List.isChain_cons.mpr ⟨fun _ _ => trivial, hrest⟩, fun tok _ next hnext => ?_⟩
  obtain rfl := Option.some.inj hnext
  exact apart_mark tok m

mutual

theorem isChain_tokens : ∀ v : Value α κ, (tokens v).IsChain Apart
  | .atom _ => List.isChain_singleton _
  | .string _ => List.isChain_singleton _
  | .array items => isChain_append_mark List.isChain_nil (isChain_itemTokens items)
  | .object members => isChain_append_mark List.isChain_nil (isChain_memberTokens members)

theorem isChain_itemTokens : ∀ items : List (Value α κ), (itemTokens items).IsChain Apart
  | [] => List.isChain_singleton _
  | [v] => isChain_append_mark (isChain_tokens v) List.isChain_nil
  | v :: w :: rest => isChain_append_mark (isChain_tokens v) (isChain_itemTokens (w :: rest))

theorem isChain_memberTokens : ∀ members : List (κ × Value α κ), (memberTokens members).IsChain Apart
  | [] => List.isChain_singleton _
  | [(_, v)] => List.isChain_cons.mpr ⟨fun _ _ => trivial,
      isChain_append_mark List.isChain_nil (isChain_append_mark (isChain_tokens v) List.isChain_nil)⟩
  | (_, v) :: w :: rest => List.isChain_cons.mpr ⟨fun _ _ => trivial, isChain_append_mark List.isChain_nil
      (isChain_append_mark (isChain_tokens v) (isChain_memberTokens (w :: rest)))⟩

end

/-! ## Keys that are there twice -/

section LastWins

variable [DecidableEq κ]

/-- A member in front of others, with the value of a later one of its key. -/
def putFirst (key : κ) (v : Value α κ) (rest : List (κ × Value α κ)) : List (κ × Value α κ) :=
  match rest.find? fun member => member.1 = key with
  | some later => (key, later.2) :: rest.filter fun member => member.1 ≠ key
  | none => (key, v) :: rest

mutual

/-- The value with the last member of every key. -/
def lastWins : Value α κ → Value α κ
  | .atom a => .atom a
  | .string s => .string s
  | .array items => .array (lastWinsItems items)
  | .object members => .object (lastWinsMembers members)

def lastWinsItems : List (Value α κ) → List (Value α κ)
  | [] => []
  | v :: items => lastWins v :: lastWinsItems items

def lastWinsMembers : List (κ × Value α κ) → List (κ × Value α κ)
  | [] => []
  | (key, v) :: members => putFirst key (lastWins v) (lastWinsMembers members)

end

mutual

/-- No object has a key twice. -/
def Distinct : Value α κ → Prop
  | .atom _ => True
  | .string _ => True
  | .array items => DistinctItems items
  | .object members => (members.map Prod.fst).Nodup ∧ DistinctMembers members

def DistinctItems : List (Value α κ) → Prop
  | [] => True
  | v :: items => Distinct v ∧ DistinctItems items

def DistinctMembers : List (κ × Value α κ) → Prop
  | [] => True
  | (_, v) :: members => Distinct v ∧ DistinctMembers members

end

mutual

theorem lastWins_of_distinct : ∀ v : Value α κ, Distinct v → lastWins v = v
  | .atom _, _ => rfl
  | .string _, _ => rfl
  | .array items, h => congrArg Value.array (lastWinsItems_of_distinct items h)
  | .object members, h => congrArg Value.object (lastWinsMembers_of_distinct members h.1 h.2)

theorem lastWinsItems_of_distinct : ∀ items : List (Value α κ), DistinctItems items → lastWinsItems items = items
  | [], _ => rfl
  | v :: items, h => congrArg₂ List.cons (lastWins_of_distinct v h.1) (lastWinsItems_of_distinct items h.2)

theorem lastWinsMembers_of_distinct : ∀ members : List (κ × Value α κ), (members.map Prod.fst).Nodup →
    DistinctMembers members → lastWinsMembers members = members
  | [], _, _ => rfl
  | (key, v) :: members, hnodup, h => by
      rw [List.map_cons, List.nodup_cons] at hnodup
      rw [lastWinsMembers, lastWins_of_distinct v h.1, lastWinsMembers_of_distinct members hnodup.2 h.2]
      have hnone : (members.find? fun member => member.1 = key) = none := by
        rw [List.find?_eq_none]
        intro member hmember heq
        exact hnodup.1 (List.mem_map.mpr ⟨member, hmember, of_decide_eq_true heq⟩)
      unfold putFirst
      rw [hnone]

end

end LastWins

/-! ## What the strings of a value weigh -/

section Weights

variable (f : κ → ℕ)

mutual

/-- The weights of the strings and the keys of a value. -/
def weight : Value α κ → ℕ
  | .atom _ => 0
  | .string s => f s
  | .array items => itemsWeight items
  | .object members => membersWeight members

def itemsWeight : List (Value α κ) → ℕ
  | [] => 0
  | v :: items => weight v + itemsWeight items

def membersWeight : List (κ × Value α κ) → ℕ
  | [] => 0
  | (key, v) :: members => f key + weight v + membersWeight members

end

def Token.weight : Token α κ → ℕ
  | .string s => f s
  | _ => 0

def tokensWeight (toks : List (Token α κ)) : ℕ := (toks.map (Token.weight f)).sum

theorem tokensWeight_append (toks rest : List (Token α κ)) :
    tokensWeight f (toks ++ rest) = tokensWeight f toks + tokensWeight f rest := by
  unfold tokensWeight
  rw [List.map_append, List.sum_append]

theorem tokensWeight_cons (tok : Token α κ) (rest : List (Token α κ)) :
    tokensWeight f (tok :: rest) = tok.weight f + tokensWeight f rest := by
  unfold tokensWeight
  rw [List.map_cons, List.sum_cons]

theorem tokensWeight_mark (m : Mark) (rest : List (Token α κ)) :
    tokensWeight f (.mark m :: rest) = tokensWeight f rest := by
  rw [tokensWeight_cons]
  exact Nat.zero_add _

mutual

theorem tokensWeight_tokens : ∀ v : Value α κ, tokensWeight f (tokens v) = weight f v
  | .atom _ => rfl
  | .string _ => rfl
  | .array items => (tokensWeight_mark f _ _).trans (tokensWeight_itemTokens items)
  | .object members => (tokensWeight_mark f _ _).trans (tokensWeight_memberTokens members)

theorem tokensWeight_itemTokens : ∀ items : List (Value α κ), tokensWeight f (itemTokens items) = itemsWeight f items
  | [] => rfl
  | [v] => by
      rw [itemTokens, tokensWeight_append, tokensWeight_tokens v]
      rfl
  | v :: w :: rest => by
      rw [itemTokens, tokensWeight_append, tokensWeight_mark, tokensWeight_tokens v,
        tokensWeight_itemTokens (w :: rest)]
      rfl

theorem tokensWeight_memberTokens : ∀ members : List (κ × Value α κ),
    tokensWeight f (memberTokens members) = membersWeight f members
  | [] => rfl
  | [(key, v)] => by
      rw [memberTokens, tokensWeight_cons, tokensWeight_mark, tokensWeight_append, tokensWeight_tokens v,
        ← Nat.add_assoc]
      rfl
  | (key, v) :: w :: rest => by
      rw [memberTokens, tokensWeight_cons, tokensWeight_mark, tokensWeight_append, tokensWeight_mark,
        tokensWeight_tokens v, tokensWeight_memberTokens (w :: rest), ← Nat.add_assoc]
      rfl

end

theorem membersWeight_filter_add {members : List (κ × Value α κ)} {p : κ × Value α κ → Bool} {member : κ × Value α κ}
    (hmem : member ∈ members) (hp : p member = false) :
    f member.1 + weight f member.2 + membersWeight f (members.filter p) ≤ membersWeight f members := by
  have hfilter (members : List (κ × Value α κ)) : membersWeight f (members.filter p) ≤ membersWeight f members := by
    induction members with
    | nil => exact Nat.le_refl _
    | cons other members ih =>
        rw [List.filter_cons]
        split_ifs
        · exact Nat.add_le_add_left ih _
        · exact Nat.le_trans ih (Nat.le_add_left _ _)
  induction members with
  | nil => cases hmem
  | cons other members ih =>
      have hother : membersWeight f (other :: members) = f other.1 + weight f other.2 + membersWeight f members := rfl
      rw [List.filter_cons, hother]
      rcases List.mem_cons.mp hmem with rfl | hmem
      · rw [hp, if_neg Bool.false_ne_true]
        exact Nat.add_le_add_left (hfilter members) _
      · have hrest := ih hmem
        split_ifs
        · show f member.1 + weight f member.2 +
            (f other.1 + weight f other.2 + membersWeight f (members.filter p)) ≤ _
          omega
        · omega

variable [DecidableEq κ]

theorem membersWeight_putFirst_le (key : κ) (v : Value α κ) (rest : List (κ × Value α κ)) :
    membersWeight f (putFirst key v rest) ≤ f key + weight f v + membersWeight f rest := by
  unfold putFirst
  split
  · rename_i later hfind
    have hfound := List.find?_some hfind
    have hkey : later.1 = key := of_decide_eq_true hfound
    have hweight := membersWeight_filter_add f (p := fun member => member.1 ≠ key) (List.mem_of_find?_eq_some hfind)
      (decide_eq_false (not_not.mpr hkey))
    rw [hkey] at hweight
    exact Nat.le_trans hweight (Nat.le_add_left _ _)
  · exact Nat.le_refl _

mutual

/-- What is lost of a value weighs something or nothing. -/
theorem weight_lastWins_le : ∀ v : Value α κ, weight f (lastWins v) ≤ weight f v
  | .atom _ => Nat.le_refl _
  | .string _ => Nat.le_refl _
  | .array items => itemsWeight_lastWins_le items
  | .object members => membersWeight_lastWins_le members

theorem itemsWeight_lastWins_le : ∀ items : List (Value α κ), itemsWeight f (lastWinsItems items) ≤ itemsWeight f items
  | [] => Nat.le_refl _
  | v :: items => Nat.add_le_add (weight_lastWins_le v) (itemsWeight_lastWins_le items)

theorem membersWeight_lastWins_le : ∀ members : List (κ × Value α κ),
    membersWeight f (lastWinsMembers members) ≤ membersWeight f members
  | [] => Nat.le_refl _
  | (key, v) :: members =>
      Nat.le_trans (membersWeight_putFirst_le f key _ _)
        (Nat.add_le_add (Nat.add_le_add_left (weight_lastWins_le v) _) (membersWeight_lastWins_le members))

end

end Weights

end JsonSyntax

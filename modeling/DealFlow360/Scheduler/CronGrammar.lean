import DealFlow360.Scheduler.Cron

/-!
# The grammar of cron expressions

An expression is a list of items in each of five fields: `*`, a number, a
range, and a step on `*` or a range. The code accepts and matches what this
grammar says with two differences. It reads numerals with `Number`, which takes
more texts for integers than decimal digits, and for infinity what is too
large; and it lets a single number have a step.

The grammar is stated twice, as documented and as the code reads it
(`documented`, `coded`); both say which texts are items and which numbers they
denote.

- `assertValidCron_iff` and `matchesCron_iff`: the code accepts and matches
  exactly what its own reading says;
- `readItem_of_decimal` and `fieldDenotes_iff`: on documented items both
  readings denote the same numbers;
- `documented_grammar_iff`: accepted and matched as documented, exactly where
  no part is one that only the code reads and no step is too large for a
  double.

Numerals of any length are allowed, which is why the steps are compared after
rounding (`step_asDouble`).
-/

namespace DealFlow360.Scheduler

open Events (Text isSpaceUnit trimText)

/-! ## Items -/

/-- What the numerals of an item may be, and whether a single number may have a step. -/
structure Reading where
  bound : Text → ℤ → Prop
  step : Text → ℤ → Prop
  singleStep : Prop

inductive Body where
  | every
  | single (value : ℤ)
  | range (first last : ℤ)
  deriving DecidableEq, Repr

structure Item where
  body : Body
  step : Option ℤ
  deriving DecidableEq, Repr

def Body.Written (reading : Reading) : Body → Text → Prop
  | .every, text => text = star
  | .single value, text => reading.bound text value
  | .range first last, text =>
      ∃ left right, text = left ++ '-'.toNat :: right ∧ reading.bound left first ∧ reading.bound right last

/-- The texts of an item. -/
def Item.Written (reading : Reading) (item : Item) (part : Text) : Prop :=
  match item.step with
  | none => item.body.Written reading part
  | some step =>
      (∃ text stepText, part = text ++ '/'.toNat :: stepText ∧ item.body.Written reading text ∧
        reading.step stepText step) ∧ (reading.singleStep ∨ ∀ value, item.body ≠ .single value)

/-- The numbers from which an item selects. -/
def Body.bounds (range : CronRange) : Body → ℤ × ℤ
  | .every => (range.min, range.max)
  | .single value => (value, value)
  | .range first last => (first, last)

/-- The numbers are in the range of the field and in order. -/
def Body.InRange (body : Body) (range : CronRange) : Prop :=
  range.min ≤ (body.bounds range).1 ∧ (body.bounds range).2 ≤ range.max ∧ (body.bounds range).1 ≤ (body.bounds range).2

instance (body : Body) (range : CronRange) : Decidable (body.InRange range) :=
  inferInstanceAs (Decidable (_ ∧ _ ∧ _))

/-- The step is one at least. -/
def Item.WellFormed (item : Item) (range : CronRange) : Prop := item.body.InRange range ∧ ∀ step ∈ item.step, 1 ≤ step

/-- An item denotes every so manieth number from its first to its last. -/
def Item.Denotes (item : Item) (range : CronRange) (value : ℤ) : Prop :=
  (item.body.bounds range).1 ≤ value ∧ value ≤ (item.body.bounds range).2 ∧
    (value - (item.body.bounds range).1) % item.step.getD 1 = 0

/-- A decimal integer. -/
def Decimal (text : Text) (value : ℤ) : Prop := text ≠ [] ∧ text.all isDigit = true ∧ value = digitsValue text

/-- The documented grammar. -/
def documented : Reading where
  bound := Decimal
  step := Decimal
  singleStep := False

/-- What the code reads. -/
def coded : Reading where
  bound := fun text value => '-'.toNat ∉ text ∧ '/'.toNat ∉ text ∧ integerOf text = some value
  step := fun text value => integerOf text = some value
  singleStep := True

/-! ## How the code reads an item -/

theorem splitStep_of_not_mem {part : Text} (h : '/'.toNat ∉ part) : splitStep part = (part, none) := by
  have hdrop : part.dropWhile (· ≠ '/'.toNat) = [] := by
    rw [List.dropWhile_eq_nil_iff]
    intro unit hunit
    have hne : unit ≠ '/'.toNat := fun heq => h (heq ▸ hunit)
    simpa using hne
  unfold splitStep
  rw [hdrop]

theorem splitStep_append {text stepText : Text} (h : '/'.toNat ∉ text) :
    splitStep (text ++ '/'.toNat :: stepText) = (text, some stepText) := by
  have hall : ∀ unit ∈ text, decide (unit ≠ '/'.toNat) = true := by
    intro unit hunit
    have hne : unit ≠ '/'.toNat := fun heq => h (heq ▸ hunit)
    simpa using hne
  unfold splitStep
  rw [List.dropWhile_append_of_pos hall, List.takeWhile_append_of_pos hall]
  simp

theorem not_mem_of_mem_splitOn {sep : ℕ} {text piece : Text} (h : piece ∈ text.splitOn sep) : sep ∉ piece := by
  induction text generalizing piece with
  | nil =>
      rw [List.mem_singleton.mp h]
      exact List.not_mem_nil
  | cons unit text ih =>
      rw [List.splitOn_cons_eq_if_modifyHead] at h
      split at h
      · rcases List.mem_cons.mp h with rfl | h
        · exact List.not_mem_nil
        · exact ih h
      · rename_i hne
        obtain ⟨first, rest, hpieces⟩ := List.exists_cons_of_ne_nil (List.splitOn_ne_nil sep text)
        rw [hpieces, List.modifyHead_cons] at h
        rcases List.mem_cons.mp h with rfl | h
        · have hfirst : sep ∉ first := ih (by rw [hpieces]; exact List.mem_cons_self)
          rw [List.mem_cons, not_or]
          exact ⟨fun heq => hne (by rw [heq]; exact beq_self_eq_true unit), hfirst⟩
        · exact ih (by rw [hpieces]; exact List.mem_cons_of_mem _ h)

theorem splitOn_eq_pair {sep : ℕ} {text left right : Text} :
    text.splitOn sep = [left, right] ↔ text = left ++ sep :: right ∧ sep ∉ left ∧ sep ∉ right := by
  constructor
  · intro h
    have hjoin : [sep].intercalate (text.splitOn sep) = text := List.intercalate_splitOn sep
    rw [h] at hjoin
    refine ⟨hjoin.symm.trans (by simp [List.intercalate]), ?_, ?_⟩
    · exact not_mem_of_mem_splitOn (by rw [h]; exact List.mem_cons_self)
    · exact not_mem_of_mem_splitOn (by rw [h]; exact List.mem_cons_of_mem _ List.mem_cons_self)
  · rintro ⟨rfl, hleft, hright⟩
    rw [List.splitOn_append_cons_self_of_not_mem hleft, List.splitOn_eq_singleton hright]

/-- The body of an item, from the text before the step. -/
def readBody (range : Text) : Option Body :=
  if range = star then some .every
  else if range.contains '-'.toNat then
    match range.splitOn '-'.toNat with
    | [first, last] => do return .range (← integerOf first) (← integerOf last)
    | _ => none
  else (integerOf range).map .single

/-- What both parsers make of a part. -/
def readItem (part : Text) : Option Item :=
  match (splitStep part).2 with
  | none => (readBody (splitStep part).1).map fun body => { body, step := none }
  | some stepText => do return { body := ← readBody (splitStep part).1, step := ← integerOf stepText }

theorem integerOf_star : integerOf star = none := by decide

theorem written_of_readBody {text : Text} (htext : '/'.toNat ∉ text) {body : Body} (h : readBody text = some body) :
    body.Written coded text := by
  unfold readBody at h
  split_ifs at h with hevery hdash
  · obtain rfl := Option.some.inj h
    exact hevery
  · split at h
    · rename_i left right hsplit
      obtain ⟨rfl, hleft, hright⟩ := splitOn_eq_pair.mp hsplit
      obtain ⟨first, hfirst, h⟩ := Option.bind_eq_some_iff.mp h
      obtain ⟨last, hlast, h⟩ := Option.bind_eq_some_iff.mp h
      obtain rfl := Option.some.inj h
      simp only [List.mem_append, List.mem_cons, not_or] at htext
      exact ⟨left, right, rfl, ⟨hleft, htext.1, hfirst⟩, hright, htext.2.2, hlast⟩
    · cases h
  · obtain ⟨value, hvalue, rfl⟩ := Option.map_eq_some_iff.mp h
    have hmem : '-'.toNat ∉ text := by simpa using hdash
    exact ⟨hmem, htext, hvalue⟩

theorem readBody_of_written {text : Text} {body : Body} (h : body.Written coded text) :
    readBody text = some body ∧ '/'.toNat ∉ text := by
  unfold readBody
  cases body with
  | every =>
      have hevery : text = star := h
      rw [if_pos hevery, hevery]
      exact ⟨rfl, by decide⟩
  | single value =>
      obtain ⟨hdash, hslash, hvalue⟩ := h
      have hevery : text ≠ star := fun heq => by
        rw [heq, integerOf_star] at hvalue
        cases hvalue
      have hdash' : ¬text.contains '-'.toNat = true := by simpa using hdash
      rw [if_neg hevery, if_neg hdash', hvalue]
      exact ⟨rfl, hslash⟩
  | range first last =>
      obtain ⟨left, right, rfl, ⟨hdash, hslash, hfirst⟩, hdash', hslash', hlast⟩ := h
      have hevery : left ++ '-'.toNat :: right ≠ star := fun heq => by
        have hmem : '-'.toNat ∈ star := by
          rw [← heq]
          simp
        exact absurd hmem (by decide)
      rw [if_neg hevery, if_pos (by simp), splitOn_eq_pair.mpr ⟨rfl, hdash, hdash'⟩]
      dsimp only
      rw [hfirst, hlast]
      refine ⟨rfl, ?_⟩
      simp only [List.mem_append, List.mem_cons, not_or]
      exact ⟨hslash, by decide, hslash'⟩

/-- The code reads an item from a part exactly if the part is one of its texts. -/
theorem readItem_eq_some {part : Text} {item : Item} : readItem part = some item ↔ item.Written coded part := by
  obtain ⟨body, step⟩ := item
  unfold readItem Item.Written
  constructor
  · intro h
    by_cases hslash : '/'.toNat ∈ part
    · obtain ⟨text, stepText, rfl, htext⟩ := List.eq_append_cons_of_mem hslash
      rw [splitStep_append htext] at h
      obtain ⟨body', hbody, h⟩ := Option.bind_eq_some_iff.mp h
      obtain ⟨step', hstep, h⟩ := Option.bind_eq_some_iff.mp h
      obtain ⟨rfl, rfl⟩ := Item.mk.inj (Option.some.inj h)
      exact ⟨⟨text, stepText, rfl, written_of_readBody htext hbody, hstep⟩, .inl trivial⟩
    · rw [splitStep_of_not_mem hslash] at h
      obtain ⟨body', hbody, h⟩ := Option.map_eq_some_iff.mp h
      obtain ⟨rfl, rfl⟩ := Item.mk.inj h
      exact written_of_readBody hslash hbody
  · intro h
    cases step with
    | none =>
        obtain ⟨hbody, hslash⟩ := readBody_of_written h
        rw [splitStep_of_not_mem hslash]
        dsimp only
        rw [hbody]
        rfl
    | some step =>
        obtain ⟨⟨text, stepText, rfl, hbody, hstep⟩, -⟩ := h
        obtain ⟨hbody, hslash⟩ := readBody_of_written hbody
        have hstep' : integerOf stepText = some step := hstep
        rw [splitStep_append hslash]
        dsimp only
        rw [hbody, hstep']
        rfl

/-! ## How the code checks and matches an item -/

theorem itemBounds_eq (text : Text) (range : CronRange) :
    itemBounds text range.min range.max = (readBody text).map (Body.bounds range) := by
  unfold itemBounds readBody
  split_ifs
  · rfl
  · rcases text.splitOn '-'.toNat with _ | ⟨left, _ | ⟨right, _ | ⟨third, rest⟩⟩⟩
    · rfl
    · rfl
    · dsimp only
      cases integerOf left with
      | none => rfl
      | some first => cases integerOf right <;> rfl
    · rfl
  · cases integerOf text <;> rfl

theorem isValidRange_eq {range : CronRange} (hrange : range.min ≤ range.max) (text : Text) :
    isValidRange text range.min range.max = (readBody text).any fun body => decide (body.InRange range) := by
  unfold isValidRange
  unfold readBody
  split_ifs
  · simp [Body.InRange, Body.bounds, hrange]
  · rcases text.splitOn '-'.toNat with _ | ⟨left, _ | ⟨right, _ | ⟨third, rest⟩⟩⟩
    · rfl
    · rfl
    · dsimp only
      cases integerOf left with
      | none => rfl
      | some first =>
          cases integerOf right with
          | none => rfl
          | some last =>
              rw [Bool.eq_iff_iff]
              exact (by simp [and_assoc] : _ ↔ range.min ≤ first ∧ last ≤ range.max ∧ first ≤ last).trans
                decide_eq_true_iff.symm
    · rfl
  · cases integerOf text with
    | none => rfl
    | some value =>
        rw [Bool.eq_iff_iff]
        exact (by simp [Body.InRange, Body.bounds] : _ ↔ (Body.single value).InRange range).trans
          decide_eq_true_iff.symm

/-- The numbers of an item that is read are checked. -/
theorem isValidListItem_eq {range : CronRange} (hrange : range.min ≤ range.max) (part : Text) :
    isValidListItem part range.min range.max = (readItem part).any fun item =>
      decide (item.body.InRange range) && item.step.all (1 ≤ ·) := by
  unfold isValidListItem readItem
  dsimp only
  rw [isValidRange_eq hrange]
  cases (splitStep part).2 with
  | none => cases readBody (splitStep part).1 <;> simp
  | some stepText =>
      rcases hstep : integerOf stepText with _ | step
      · cases readBody (splitStep part).1 <;> simp [hstep]
      · cases readBody (splitStep part).1 <;> by_cases hone : 1 ≤ step <;> simp [hstep, hone]

/-- An item matches where the code reads it, checks it and finds the value among its numbers. -/
theorem listItemMatches_eq (part : Text) (value : ℤ) (range : CronRange) :
    listItemMatches part value range.min range.max = (readItem part).any fun item =>
      decide (item.body.InRange range) && item.step.all (1 ≤ ·) &&
        decide ((item.body.bounds range).1 ≤ value ∧ value ≤ (item.body.bounds range).2 ∧
          (value - (item.body.bounds range).1) % item.step.getD 1 = 0) := by
  have hitem (body : Body) (step : ℤ) :
      (if (body.bounds range).1 < range.min ∨ (body.bounds range).2 > range.max ∨
          (body.bounds range).1 > (body.bounds range).2 then false
        else if value < (body.bounds range).1 ∨ value > (body.bounds range).2 then false
        else decide ((value - (body.bounds range).1) % step = 0)) =
      (decide (body.InRange range) && decide ((body.bounds range).1 ≤ value ∧ value ≤ (body.bounds range).2 ∧
        (value - (body.bounds range).1) % step = 0)) := by
    unfold Body.InRange
    split_ifs with hrange hvalue
    · have hout : ¬(range.min ≤ (body.bounds range).1 ∧ (body.bounds range).2 ≤ range.max ∧
          (body.bounds range).1 ≤ (body.bounds range).2) := by omega
      simp [hout]
    · have hout : ¬((body.bounds range).1 ≤ value ∧ value ≤ (body.bounds range).2) := by omega
      simp only [← and_assoc, hout, false_and, decide_false, Bool.and_false]
    · have hin : range.min ≤ (body.bounds range).1 ∧ (body.bounds range).2 ≤ range.max ∧
          (body.bounds range).1 ≤ (body.bounds range).2 := by omega
      have hin' : (body.bounds range).1 ≤ value ∧ value ≤ (body.bounds range).2 := by omega
      simp [hin, hin']
  unfold listItemMatches readItem
  dsimp only
  rw [itemBounds_eq]
  cases (splitStep part).2 with
  | none =>
      cases readBody (splitStep part).1 with
      | none => rfl
      | some body => simpa using hitem body 1
  | some stepText =>
      rcases hstep : integerOf stepText with _ | step
      · cases readBody (splitStep part).1 <;> simp [hstep]
      · cases readBody (splitStep part).1 with
        | none => by_cases hone : 1 ≤ step <;> simp [hstep, Option.filter, hone]
        | some body =>
            by_cases hone : 1 ≤ step
            · simpa [hstep, Option.filter, hone] using hitem body step
            · simp [hstep, Option.filter, hone]

theorem all_step_iff (step : Option ℤ) : step.all (1 ≤ ·) = true ↔ ∀ n ∈ step, 1 ≤ n := by
  cases step <;> simp

theorem isValidListItem_iff {part : Text} {range : CronRange} (hrange : range.min ≤ range.max) :
    isValidListItem part range.min range.max = true ↔
      ∃ item : Item, item.Written coded part ∧ item.WellFormed range := by
  simp only [isValidListItem_eq hrange, ← readItem_eq_some]
  cases readItem part with
  | none => simp
  | some item => simp [Item.WellFormed, all_step_iff]

theorem listItemMatches_iff {part : Text} {value : ℤ} {range : CronRange} :
    listItemMatches part value range.min range.max = true ↔
      ∃ item : Item, item.Written coded part ∧ item.WellFormed range ∧ item.Denotes range value := by
  simp only [listItemMatches_eq, ← readItem_eq_some]
  cases readItem part with
  | none => simp
  | some item => simp [Item.WellFormed, Item.Denotes, all_step_iff, and_assoc]

/-! ## Expressions -/

/-- A field is a list of items, each as the reading has it and of the right size. -/
def FieldOf (reading : Reading) (range : CronRange) (field : Text) : Prop :=
  ∀ part ∈ field.splitOn ','.toNat, ∃ item : Item, item.Written reading part ∧ item.WellFormed range

def FieldDenotes (reading : Reading) (range : CronRange) (field : Text) (value : ℤ) : Prop :=
  ∃ part ∈ field.splitOn ','.toNat, ∃ item : Item, item.Written reading part ∧ item.Denotes range value

/-- The fields of an expression, which are between white space. -/
def fields (expression : Text) : List Text := Spacing.words isSpaceUnit expression

/-- Five fields of well-formed items. -/
def ExpressionOf (reading : Reading) (expression : Text) : Prop :=
  List.Forall₂ (fun field range => FieldOf reading range field) (fields expression) ranges

/-- Each field denotes its component of the time, and Sunday is 7 as well as 0. -/
def ExpressionDenotes (reading : Reading) (expression : Text) (date : ℤ) : Prop :=
  ∃ minute hour day month weekday, fields expression = [minute, hour, day, month, weekday] ∧
    FieldDenotes reading ⟨0, 59⟩ minute (Dates.getUTCMinutes date) ∧
    FieldDenotes reading ⟨0, 23⟩ hour (Dates.getUTCHours date) ∧
    FieldDenotes reading ⟨1, 31⟩ day (Dates.civil date).day ∧
    FieldDenotes reading ⟨1, 12⟩ month (Dates.civil date).month ∧
    (FieldDenotes reading ⟨0, 7⟩ weekday (Dates.getUTCDay date) ∨
      Dates.getUTCDay date = 0 ∧ FieldDenotes reading ⟨0, 7⟩ weekday 7)

theorem splitOn_star : star.splitOn ','.toNat = [star] := List.splitOn_eq_singleton (by decide)

theorem isValidField_iff {field : Text} {range : CronRange} (hrange : range.min ≤ range.max) :
    isValidField field range = true ↔ FieldOf coded range field := by
  unfold isValidField FieldOf
  simp only [Bool.or_eq_true, decide_eq_true_eq, List.all_eq_true, isValidListItem_iff hrange]
  refine ⟨fun h => h.elim (fun hstar => ?_) id, .inr⟩
  rw [hstar, splitOn_star, List.forall_mem_singleton]
  refine ⟨⟨.every, none⟩, rfl, ⟨le_rfl, le_rfl, hrange⟩, nofun⟩

/-- In a field whose items are well-formed a value of the field matches where it is denoted. -/
theorem fieldMatches_iff {field : Text} {range : CronRange} (hfield : FieldOf coded range field) {value : ℤ}
    (hvalue : range.min ≤ value ∧ value ≤ range.max) :
    fieldMatches field value range = true ↔ FieldDenotes coded range field value := by
  unfold fieldMatches FieldDenotes
  simp only [Bool.or_eq_true, decide_eq_true_eq, List.any_eq_true, listItemMatches_iff]
  constructor
  · rintro (hstar | ⟨part, hpart, item, hwritten, -, hdenotes⟩)
    · rw [hstar, splitOn_star]
      refine ⟨star, List.mem_singleton_self _, ⟨.every, none⟩, rfl, hvalue.1, hvalue.2, ?_⟩
      simp
    · exact ⟨part, hpart, item, hwritten, hdenotes⟩
  · rintro ⟨part, hpart, item, hwritten, hdenotes⟩
    obtain ⟨item', hwritten', hformed⟩ := hfield part hpart
    obtain rfl := Option.some.inj ((readItem_eq_some.mpr hwritten).symm.trans (readItem_eq_some.mpr hwritten'))
    exact .inr ⟨part, hpart, item, hwritten, hformed, hdenotes⟩

/-- The code finds the fields of an expression where there are five. -/
theorem splitCron_eq_ok {expression : Text} {parts : List Text} :
    splitCron expression = .ok parts ↔ parts = fields expression ∧ parts.length = 5 := by
  have hwords : Spacing.words isSpaceUnit (trimText expression) = fields expression := Spacing.words_strip expression
  unfold splitCron splitSpaces
  dsimp only
  by_cases hnil : trimText expression = []
  · rw [if_pos hnil, if_pos (by decide)]
    rw [hnil] at hwords
    refine ⟨nofun, ?_⟩
    rintro ⟨rfl, hlength⟩
    rw [← hwords] at hlength
    cases hlength
  · rw [if_neg hnil, hwords]
    split_ifs with hlength
    · refine ⟨nofun, ?_⟩
      rintro ⟨rfl, hfive⟩
      exact absurd hfive hlength
    · constructor
      · intro h
        obtain rfl := Except.ok.inj h
        exact ⟨rfl, not_not.mp hlength⟩
      · rintro ⟨rfl, -⟩
        rfl

theorem ranges_ordered : ∀ range ∈ ranges, range.min ≤ range.max := by decide

/-- The code accepts what its own reading has for an expression. -/
theorem assertValidCron_iff {expression : Text} :
    (assertValidCron expression).isOk = true ↔ ExpressionOf coded expression := by
  unfold assertValidCron ExpressionOf
  cases hsplit : splitCron expression with
  | error error =>
      refine ⟨nofun, fun h => ?_⟩
      rw [splitCron_eq_ok.mpr ⟨rfl, h.length_eq⟩] at hsplit
      cases hsplit
  | ok parts =>
      obtain ⟨rfl, hlength⟩ := splitCron_eq_ok.mp hsplit
      show (checkFields expression (fields expression)).isOk = true ↔ _
      have hall : ((fields expression).zip ranges).find? (fun field => !isValidField field.1 field.2) = none ↔
          List.Forall₂ (fun field range => FieldOf coded range field) (fields expression) ranges := by
        rw [List.find?_eq_none, List.forall₂_iff_zip]
        refine ⟨fun h => ⟨hlength, fun {field range} hmem => ?_⟩, fun h field hmem => ?_⟩
        · refine (isValidField_iff (ranges_ordered _ (List.of_mem_zip hmem).2)).mp ?_
          simpa using h _ hmem
        · have hfield := (isValidField_iff (ranges_ordered _ (List.of_mem_zip hmem).2)).mpr (h.2 hmem)
          simpa using hfield
      rw [← hall]
      unfold checkFields
      cases ((fields expression).zip ranges).find? (fun field => !isValidField field.1 field.2) with
      | none => exact ⟨fun _ => rfl, fun _ => rfl⟩
      | some pair => exact ⟨nofun, nofun⟩

/-- An accepted expression matches the times that it denotes. -/
theorem matchesCron_iff {expression : Text} (h : ExpressionOf coded expression) (date : ℤ) :
    ∃ found, matchesCron expression date = .ok found ∧ (found = true ↔ ExpressionDenotes coded expression date) := by
  have hsplit : splitCron expression = .ok (fields expression) := splitCron_eq_ok.mpr ⟨rfl, h.length_eq⟩
  unfold ExpressionOf at h
  unfold matchesCron ExpressionDenotes
  rw [hsplit]
  generalize fields expression = parts at h
  rcases h with _ | ⟨hminute, _ | ⟨hhour, _ | ⟨hday, _ | ⟨hmonth, _ | ⟨hweekday, _ | _⟩⟩⟩⟩⟩
  rename_i minute hour day month weekday
  refine ⟨_, rfl, ?_⟩
  have hmonths : 1 ≤ (Dates.civil date).month ∧ (Dates.civil date).month ≤ 12 := (Dates.civilOfDay_bounds _).1
  have hdays : 1 ≤ (Dates.civil date).day ∧ (Dates.civil date).day ≤ 31 := (Dates.civilOfDay_bounds _).2
  have hweek := Dates.getUTCDay_bounds date
  unfold matchesDayOfWeek
  simp only [Bool.and_eq_true, Bool.or_eq_true, decide_eq_true_eq]
  rw [fieldMatches_iff hminute (Dates.getUTCMinutes_bounds date),
    fieldMatches_iff hhour (Dates.getUTCHours_bounds date),
    fieldMatches_iff hday hdays, fieldMatches_iff hmonth hmonths,
    fieldMatches_iff hweekday ⟨hweek.1, hweek.2.trans (by decide)⟩,
    fieldMatches_iff hweekday ⟨by decide, by decide⟩]
  constructor
  · rintro ⟨⟨⟨⟨hminutes, hhours⟩, hday'⟩, hmonth'⟩, hsunday⟩
    exact ⟨_, _, _, _, _, rfl, hminutes, hhours, hday', hmonth', hsunday⟩
  · rintro ⟨_, _, _, _, _, hsame, hminutes, hhours, hday', hmonth', hsunday⟩
    simp only [List.cons.injEq] at hsame
    obtain ⟨rfl, rfl, rfl, rfl, rfl, -⟩ := hsame
    exact ⟨⟨⟨⟨hminutes, hhours⟩, hday'⟩, hmonth'⟩, hsunday⟩

/-! ## Documented items as the code reads them -/

/-- The numerals of a body as doubles. -/
def Body.rounded : Body → Option Body
  | .every => some .every
  | .single value => (asDouble value).map .single
  | .range first last => do return .range (← asDouble first) (← asDouble last)

def Item.rounded (item : Item) : Option Item :=
  match item.step with
  | none => item.body.rounded.map fun body => { body, step := none }
  | some step => do return { body := ← item.body.rounded, step := ← asDouble step }

theorem Decimal.not_mem {text : Text} {value : ℤ} (h : Decimal text value) {unit : ℕ} (hunit : isDigit unit = false) :
    unit ∉ text := fun hmem => ne_of_isDigit (List.all_eq_true.mp h.2.1 unit hmem) hunit rfl

theorem Decimal.integerOf_eq {text : Text} {value : ℤ} (h : Decimal text value) : integerOf text = asDouble value := by
  rw [h.2.2]
  exact integerOf_digits h.1 (List.all_eq_true.mp h.2.1)

theorem Decimal.nonneg {text : Text} {value : ℤ} (h : Decimal text value) : 0 ≤ value := by
  rw [h.2.2]
  exact Int.natCast_nonneg _

theorem readBody_of_decimal {text : Text} {body : Body} (h : body.Written documented text) :
    readBody text = body.rounded ∧ '/'.toNat ∉ text := by
  unfold readBody
  cases body with
  | every =>
      have hevery : text = star := h
      rw [if_pos hevery, hevery]
      exact ⟨rfl, by decide⟩
  | single value =>
      have hvalue : Decimal text value := h
      have hevery : text ≠ star := fun heq =>
        (hvalue.not_mem rfl : '*'.toNat ∉ text) (heq ▸ List.mem_singleton_self _)
      have hdash : ¬text.contains '-'.toNat = true := by
        simpa using (hvalue.not_mem rfl : '-'.toNat ∉ text)
      rw [if_neg hevery, if_neg hdash, hvalue.integerOf_eq]
      exact ⟨rfl, hvalue.not_mem rfl⟩
  | range first last =>
      obtain ⟨left, right, rfl, hfirst, hlast⟩ := h
      have hfirst : Decimal left first := hfirst
      have hlast : Decimal right last := hlast
      have hevery : left ++ '-'.toNat :: right ≠ star := fun heq => by
        have hmem : '-'.toNat ∈ star := by
          rw [← heq]
          simp
        exact absurd hmem (by decide)
      rw [if_neg hevery, if_pos (by simp), splitOn_eq_pair.mpr ⟨rfl, hfirst.not_mem rfl, hlast.not_mem rfl⟩]
      dsimp only
      rw [hfirst.integerOf_eq, hlast.integerOf_eq]
      refine ⟨rfl, ?_⟩
      simp only [List.mem_append, List.mem_cons, not_or]
      exact ⟨hfirst.not_mem rfl, by decide, hlast.not_mem rfl⟩

/-- The code reads a documented item with its numerals as doubles. -/
theorem readItem_of_decimal {part : Text} {item : Item} (h : item.Written documented part) :
    readItem part = item.rounded := by
  obtain ⟨body, step⟩ := item
  unfold readItem Item.rounded
  cases step with
  | none =>
      obtain ⟨hbody, hslash⟩ := readBody_of_decimal h
      rw [splitStep_of_not_mem hslash]
      dsimp only
      rw [hbody]
  | some step =>
      obtain ⟨⟨text, stepText, rfl, hbody, hstep⟩, -⟩ := h
      obtain ⟨hbody, hslash⟩ := readBody_of_decimal hbody
      have hstep : Decimal stepText step := hstep
      rw [splitStep_append hslash]
      dsimp only
      rw [hbody, hstep.integerOf_eq]

/-! ## Rounding numerals of a field -/

/-- The numbers of every field are small. -/
def CronRange.Small (range : CronRange) : Prop := 0 ≤ range.min ∧ range.max ≤ 59

instance (range : CronRange) : Decidable range.Small := inferInstanceAs (Decidable (_ ∧ _))

theorem ranges_small : ∀ range ∈ ranges, range.Small := by decide

theorem eq_of_asDouble {n value : ℤ} (hn : 0 ≤ n) (h : asDouble n = some value) (hsmall : n ≤ 59 ∨ value ≤ 59) :
    value = n := by
  lift n to ℕ using hn
  rcases Nat.le_total n (2 ^ 53) with hle | hge
  · exact Option.some.inj (h.symm.trans (asDouble_of_le hle))
  · have hlarge := le_asDouble h hge
    omega

/-- A large step selects the first number only, before and after rounding. -/
theorem step_asDouble {step value : ℤ} (hstep : 0 ≤ step) (h : asDouble step = some value) :
    (1 ≤ value ↔ 1 ≤ step) ∧ ∀ k, 0 ≤ k → k ≤ 59 → (k % value = 0 ↔ k % step = 0) := by
  lift step to ℕ using hstep
  rcases Nat.le_total step (2 ^ 53) with hle | hge
  · obtain rfl := Option.some.inj (h.symm.trans (asDouble_of_le hle))
    exact ⟨Iff.rfl, fun _ _ _ => Iff.rfl⟩
  · have hlarge := le_asDouble h hge
    refine ⟨by omega, fun k hk hsmall => ?_⟩
    rw [Int.emod_eq_of_lt hk (by omega), Int.emod_eq_of_lt hk (by omega)]

theorem Body.eq_of_rounded {body rounded : Body} {text : Text} (hwritten : body.Written documented text)
    (h : body.rounded = some rounded) {range : CronRange} (hsmall : range.Small)
    (hin : body.InRange range ∨ rounded.InRange range) : rounded = body := by
  have hmax : range.max ≤ 59 := hsmall.2
  cases body with
  | every => exact (Option.some.inj h).symm
  | single n =>
      have hn : Decimal text n := hwritten
      obtain ⟨value, hvalue, rfl⟩ := Option.map_eq_some_iff.mp h
      simp only [Body.InRange, Body.bounds] at hin
      rw [eq_of_asDouble hn.nonneg hvalue (by omega)]
  | range first last =>
      obtain ⟨left, right, -, hfirst, hlast⟩ := hwritten
      have hfirst : Decimal left first := hfirst
      have hlast : Decimal right last := hlast
      obtain ⟨first', hfirst', h⟩ := Option.bind_eq_some_iff.mp h
      obtain ⟨last', hlast', h⟩ := Option.bind_eq_some_iff.mp h
      obtain rfl := Option.some.inj h
      simp only [Body.InRange, Body.bounds] at hin
      rw [eq_of_asDouble hfirst.nonneg hfirst' (by omega), eq_of_asDouble hlast.nonneg hlast' (by omega)]

theorem Item.rounded_eq_some {item rounded : Item} : item.rounded = some rounded ↔
    item.body.rounded = some rounded.body ∧ Option.Rel (fun step value => asDouble step = some value) item.step
      rounded.step := by
  obtain ⟨body, step⟩ := item
  obtain ⟨body', step'⟩ := rounded
  unfold Item.rounded
  cases step with
  | none =>
      dsimp only
      rw [Option.map_eq_some_iff]
      constructor
      · rintro ⟨body'', hbody, h⟩
        obtain ⟨rfl, rfl⟩ := Item.mk.inj h
        exact ⟨hbody, .none⟩
      · rintro ⟨hbody, hstep⟩
        cases hstep
        exact ⟨body', hbody, rfl⟩
  | some step =>
      dsimp only
      constructor
      · intro h
        obtain ⟨body'', hbody, h⟩ := Option.bind_eq_some_iff.mp h
        obtain ⟨step'', hstep, h⟩ := Option.bind_eq_some_iff.mp h
        obtain ⟨rfl, rfl⟩ := Item.mk.inj (Option.some.inj h)
        exact ⟨hbody, .some hstep⟩
      · rintro ⟨hbody, hstep⟩
        rcases hstep with hstep | _
        rw [hbody, hstep]
        rfl

theorem Item.step_nonneg {item : Item} {part : Text} (h : item.Written documented part) :
    ∀ step ∈ item.step, 0 ≤ step := by
  intro step hstep
  obtain ⟨body, stepped⟩ := item
  obtain rfl : stepped = some step := hstep
  obtain ⟨⟨text, stepText, -, -, hdecimal⟩, -⟩ := h
  exact @Decimal.nonneg stepText _ hdecimal

theorem Item.body_of_written {item : Item} {part : Text} {reading : Reading} (h : item.Written reading part) :
    ∃ text, item.body.Written reading text := by
  obtain ⟨body, step⟩ := item
  cases step with
  | none => exact ⟨part, h⟩
  | some step =>
      obtain ⟨⟨text, -, -, hbody, -⟩, -⟩ := h
      exact ⟨text, hbody⟩

section

variable {item rounded : Item} {part : Text} {range : CronRange}

theorem Item.wellFormed_iff_of_rounded (hwritten : item.Written documented part) (h : item.rounded = some rounded)
    (hsmall : range.Small) : rounded.WellFormed range ↔ item.WellFormed range := by
  obtain ⟨hbody, hstep⟩ := Item.rounded_eq_some.mp h
  obtain ⟨text, htext⟩ := Item.body_of_written hwritten
  have hsteps : (∀ step ∈ rounded.step, 1 ≤ step) ↔ ∀ step ∈ item.step, 1 ≤ step := by
    have hnonneg := Item.step_nonneg hwritten
    generalize item.step = step, rounded.step = value at hstep hnonneg
    cases hstep with
    | none => exact Iff.rfl
    | some hstep => simpa using (step_asDouble (hnonneg _ rfl) hstep).1
  unfold Item.WellFormed
  rw [hsteps]
  constructor
  · rintro ⟨hin, hone⟩
    rw [Body.eq_of_rounded htext hbody hsmall (.inr hin)] at hin
    exact ⟨hin, hone⟩
  · rintro ⟨hin, hone⟩
    rw [Body.eq_of_rounded htext hbody hsmall (.inl hin)]
    exact ⟨hin, hone⟩

theorem Item.denotes_iff_of_rounded (hwritten : item.Written documented part) (h : item.rounded = some rounded)
    (hsmall : range.Small) (hformed : item.WellFormed range) {value : ℤ} :
    rounded.Denotes range value ↔ item.Denotes range value := by
  obtain ⟨hbody, hstep⟩ := Item.rounded_eq_some.mp h
  obtain ⟨text, htext⟩ := Item.body_of_written hwritten
  have hnonneg := Item.step_nonneg hwritten
  have hmin : 0 ≤ range.min := hsmall.1
  have hmax : range.max ≤ 59 := hsmall.2
  obtain ⟨hin, -⟩ := hformed
  unfold Item.Denotes
  rw [Body.eq_of_rounded htext hbody hsmall (.inl hin)]
  refine and_congr_right fun hfirst => and_congr_right fun hlast => ?_
  unfold Body.InRange at hin
  generalize item.step = step, rounded.step = rounding at hstep hnonneg
  cases hstep with
  | none => exact Iff.rfl
  | some hstep => exact (step_asDouble (hnonneg _ rfl) hstep).2 _ (by omega) (by omega)

/-- A documented item in range is read as long as its step is finite. -/
theorem Item.rounded_isSome_iff (hwritten : item.Written documented part) (hsmall : range.Small)
    (hformed : item.WellFormed range) :
    (∃ rounded, item.rounded = some rounded) ↔ ∀ step ∈ item.step, Doubles.toDouble step ≠ ⊤ := by
  obtain ⟨text, htext⟩ := Item.body_of_written hwritten
  have hnonneg := Item.step_nonneg hwritten
  have hmax : range.max ≤ 59 := hsmall.2
  have hread {n : ℤ} (hn : 0 ≤ n) (hle : n ≤ 59) : asDouble n = some n := by
    lift n to ℕ using hn
    exact asDouble_of_le (by omega)
  have hbody : item.body.rounded = some item.body := by
    have hin : item.body.InRange range := hformed.1
    have hmin : 0 ≤ range.min := hsmall.1
    generalize item.body = body at hin
    unfold Body.rounded
    cases body with
    | every => rfl
    | single n =>
        simp only [Body.InRange, Body.bounds] at hin
        dsimp only
        rw [hread (by omega) (by omega)]
        rfl
    | range first last =>
        simp only [Body.InRange, Body.bounds] at hin
        dsimp only
        rw [hread (by omega) (by omega), hread (by omega) (by omega)]
        rfl
  constructor
  · rintro ⟨rounded, h⟩ step hstep
    obtain ⟨-, hrel⟩ := Item.rounded_eq_some.mp h
    have hn : 0 ≤ step := hnonneg step hstep
    rw [show item.step = some step from hstep] at hrel
    lift step to ℕ using hn
    generalize rounded.step = rounding at hrel
    rcases hrel with hrel | _
    rw [Int.cast_natCast, asDouble_eq_some.mp hrel]
    exact WithTop.coe_ne_top
  · intro hfinite
    rcases hstep : item.step with _ | step
    · exact ⟨⟨item.body, none⟩, Item.rounded_eq_some.mpr ⟨hbody, by rw [hstep]; exact .none⟩⟩
    · have hn : 0 ≤ step := hnonneg step hstep
      have hne := hfinite step hstep
      lift step to ℕ using hn
      rcases hvalue : asDouble step with _ | value
      · exact absurd (asDouble_eq_none.mp hvalue) (by simpa using hne)
      · exact ⟨⟨item.body, some value⟩, Item.rounded_eq_some.mpr ⟨hbody, by rw [hstep]; exact .some hvalue⟩⟩

end

/-! ## Documented expressions -/

/-- Every item is one of the documented kinds, whatever its numbers. -/
def Plain (expression : Text) : Prop :=
  ∀ field ∈ fields expression, ∀ part ∈ field.splitOn ','.toNat, ∃ item : Item, item.Written documented part

/-- No step is so large that the double nearest to it is infinite. -/
def FiniteSteps (expression : Text) : Prop :=
  ∀ field ∈ fields expression, ∀ part ∈ field.splitOn ','.toNat, ∀ item : Item, item.Written documented part →
    ∀ step ∈ item.step, Doubles.toDouble step ≠ ⊤

section

variable {field : Text} {range : CronRange}

/-- What the code reads from a documented part of a field that it accepts. -/
theorem rounded_of_coded (hsmall : range.Small) (h : FieldOf coded range field) {part : Text}
    (hpart : part ∈ field.splitOn ','.toNat) {item : Item} (hwritten : item.Written documented part) :
    ∃ rounded : Item, rounded.Written coded part ∧ item.rounded = some rounded ∧ item.WellFormed range := by
  obtain ⟨rounded, hcoded, hformed⟩ := h part hpart
  have hrounded : item.rounded = some rounded :=
    (readItem_of_decimal hwritten).symm.trans (readItem_eq_some.mpr hcoded)
  exact ⟨rounded, hcoded, hrounded, (Item.wellFormed_iff_of_rounded hwritten hrounded hsmall).mp hformed⟩

theorem documented_of_coded (hsmall : range.Small) (h : FieldOf coded range field)
    (hplain : ∀ part ∈ field.splitOn ','.toNat, ∃ item : Item, item.Written documented part) :
    FieldOf documented range field := by
  intro part hpart
  obtain ⟨item, hwritten⟩ := hplain part hpart
  obtain ⟨rounded, -, -, hformed⟩ := rounded_of_coded hsmall h hpart hwritten
  exact ⟨item, hwritten, hformed⟩

theorem coded_of_documented (hsmall : range.Small) (h : FieldOf documented range field)
    (hfinite : ∀ part ∈ field.splitOn ','.toNat, ∀ item : Item, item.Written documented part →
      ∀ step ∈ item.step, Doubles.toDouble step ≠ ⊤) : FieldOf coded range field := by
  intro part hpart
  obtain ⟨item, hwritten, hformed⟩ := h part hpart
  obtain ⟨rounded, hrounded⟩ :=
    (Item.rounded_isSome_iff hwritten hsmall hformed).mpr (hfinite part hpart item hwritten)
  exact ⟨rounded, readItem_eq_some.mp ((readItem_of_decimal hwritten).trans hrounded),
    (Item.wellFormed_iff_of_rounded hwritten hrounded hsmall).mpr hformed⟩

theorem finite_of_coded (hsmall : range.Small) (h : FieldOf coded range field) :
    ∀ part ∈ field.splitOn ','.toNat, ∀ item : Item, item.Written documented part →
      ∀ step ∈ item.step, Doubles.toDouble step ≠ ⊤ := by
  intro part hpart item hwritten
  obtain ⟨rounded, -, hrounded, hformed⟩ := rounded_of_coded hsmall h hpart hwritten
  exact (Item.rounded_isSome_iff hwritten hsmall hformed).mp ⟨rounded, hrounded⟩

/-- A field of documented items denotes the same numbers in both readings. -/
theorem fieldDenotes_iff (hsmall : range.Small) (h : FieldOf coded range field)
    (hplain : ∀ part ∈ field.splitOn ','.toNat, ∃ item : Item, item.Written documented part) {value : ℤ} :
    FieldDenotes coded range field value ↔ FieldDenotes documented range field value := by
  constructor
  · rintro ⟨part, hpart, rounded, hcoded, hdenotes⟩
    obtain ⟨item, hwritten⟩ := hplain part hpart
    obtain ⟨rounded', hcoded', hrounded, hformed⟩ := rounded_of_coded hsmall h hpart hwritten
    obtain rfl := Option.some.inj ((readItem_eq_some.mpr hcoded).symm.trans (readItem_eq_some.mpr hcoded'))
    exact ⟨part, hpart, item, hwritten, (Item.denotes_iff_of_rounded hwritten hrounded hsmall hformed).mp hdenotes⟩
  · rintro ⟨part, hpart, item, hwritten, hdenotes⟩
    obtain ⟨rounded, hcoded, hrounded, hformed⟩ := rounded_of_coded hsmall h hpart hwritten
    exact ⟨part, hpart, rounded, hcoded, (Item.denotes_iff_of_rounded hwritten hrounded hsmall hformed).mpr hdenotes⟩

end

theorem documented_of_plain {expression : Text} (h : ExpressionOf coded expression) (hplain : Plain expression) :
    ExpressionOf documented expression := by
  obtain ⟨hlength, hall⟩ := List.forall₂_iff_zip.mp h
  refine List.forall₂_iff_zip.mpr ⟨hlength, fun {field range} hmem => ?_⟩
  obtain ⟨hfield, hrange⟩ := List.of_mem_zip hmem
  exact documented_of_coded (ranges_small range hrange) (hall hmem) (hplain field hfield)

theorem coded_of_finite {expression : Text} (h : ExpressionOf documented expression)
    (hfinite : FiniteSteps expression) : ExpressionOf coded expression := by
  obtain ⟨hlength, hall⟩ := List.forall₂_iff_zip.mp h
  refine List.forall₂_iff_zip.mpr ⟨hlength, fun {field range} hmem => ?_⟩
  obtain ⟨hfield, hrange⟩ := List.of_mem_zip hmem
  exact coded_of_documented (ranges_small range hrange) (hall hmem) (hfinite field hfield)

theorem exists_range {expression field : Text} {reading : Reading} (h : ExpressionOf reading expression)
    (hfield : field ∈ fields expression) : ∃ range ∈ ranges, FieldOf reading range field := by
  unfold ExpressionOf at h
  generalize fields expression = parts, ranges = all at h hfield ⊢
  induction h with
  | nil => cases hfield
  | cons hhead _ ih =>
      rcases List.mem_cons.mp hfield with rfl | hfield
      · exact ⟨_, List.mem_cons_self, hhead⟩
      · obtain ⟨range, hrange, hof⟩ := ih hfield
        exact ⟨range, List.mem_cons_of_mem _ hrange, hof⟩

theorem plain_of_documented {expression : Text} (h : ExpressionOf documented expression) : Plain expression := by
  intro field hfield part hpart
  obtain ⟨range, -, hof⟩ := exists_range h hfield
  obtain ⟨item, hwritten, -⟩ := hof part hpart
  exact ⟨item, hwritten⟩

theorem finiteSteps_of_coded {expression : Text} (h : ExpressionOf coded expression) : FiniteSteps expression := by
  intro field hfield
  obtain ⟨range, hrange, hof⟩ := exists_range h hfield
  exact finite_of_coded (ranges_small range hrange) hof

theorem expressionDenotes_iff {expression : Text} (h : ExpressionOf coded expression) (hplain : Plain expression)
    (date : ℤ) : ExpressionDenotes coded expression date ↔ ExpressionDenotes documented expression date := by
  unfold ExpressionDenotes
  refine exists_congr fun minute => exists_congr fun hour => exists_congr fun day => exists_congr fun month =>
    exists_congr fun weekday => and_congr_right fun hfields => ?_
  unfold ExpressionOf at h
  unfold Plain at hplain
  rw [hfields] at h hplain
  simp only [List.forall_mem_cons] at hplain
  rcases h with _ | ⟨hminute, _ | ⟨hhour, _ | ⟨hday, _ | ⟨hmonth, _ | ⟨hweekday, _ | _⟩⟩⟩⟩⟩
  rw [fieldDenotes_iff (by decide) hminute hplain.1, fieldDenotes_iff (by decide) hhour hplain.2.1,
    fieldDenotes_iff (by decide) hday hplain.2.2.1, fieldDenotes_iff (by decide) hmonth hplain.2.2.2.1,
    fieldDenotes_iff (by decide) hweekday hplain.2.2.2.2.1, fieldDenotes_iff (by decide) hweekday hplain.2.2.2.2.1]

/--
The expressions of the documented grammar are accepted, and an accepted expression matches the times that it denotes,
except for two kinds of expressions: those accepted with an item that is not documented, and those of the grammar
with a step that no finite double is nearest to.
-/
theorem documented_grammar_iff (expression : Text) :
    (((assertValidCron expression).isOk = true ↔ ExpressionOf documented expression) ∧
      ((assertValidCron expression).isOk = true → ∀ date, ∃ found, matchesCron expression date = .ok found ∧
        (found = true ↔ ExpressionDenotes documented expression date))) ↔
      (ExpressionOf coded expression → Plain expression) ∧
        (ExpressionOf documented expression → FiniteSteps expression) := by
  rw [assertValidCron_iff]
  constructor
  · rintro ⟨haccepted, -⟩
    exact ⟨fun h => plain_of_documented (haccepted.mp h), fun h => finiteSteps_of_coded (haccepted.mpr h)⟩
  · rintro ⟨hplain, hfinite⟩
    refine ⟨⟨fun h => documented_of_plain h (hplain h), fun h => coded_of_finite h (hfinite h)⟩, fun h date => ?_⟩
    obtain ⟨found, hfound, hmatch⟩ := matchesCron_iff h date
    exact ⟨found, hfound, hmatch.trans (expressionDenotes_iff h (hplain h) date)⟩

/-- Nothing after a comma is read as zero. -/
theorem trailing_comma_accepted : ¬((assertValidCron (codeUnits "30, * * * *")).isOk = true ↔
    ExpressionOf documented (codeUnits "30, * * * *")) := by
  intro hsame
  have hplain := plain_of_documented (hsame.mp (by decide +kernel))
  have hfield : codeUnits "30," ∈ fields (codeUnits "30, * * * *") := by decide
  obtain ⟨⟨body, step⟩, hwritten⟩ := hplain _ hfield [] (by decide)
  cases step with
  | none =>
      cases body with
      | every => cases hwritten
      | single value => exact hwritten.1 rfl
      | range first last =>
          obtain ⟨left, right, htext, -⟩ := hwritten
          exact absurd htext.symm (by simp)
  | some step =>
      obtain ⟨⟨text, stepText, htext, -⟩, -⟩ := hwritten
      exact absurd htext.symm (by simp)

end DealFlow360.Scheduler

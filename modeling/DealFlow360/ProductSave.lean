import DealFlow360.Frames
import DealFlow360.Lib.Loops
import Mathlib.Data.List.TakeWhile

/-!
# A product that fails to be saved

`upsertProduct` stores the product, then its stock rows one by one, then its
quantity breaks. What refuses a stock row or a break comes after the writes
before it, and those stay.

The save is three loops after a check. `checkProduct_eq_ok` is what a passed
check says, `upsertStock_run` what a stock row does, and the breaks are one
replace; `outcome_of_checked` puts them in order. A refusal can come from the
second stock row or from the breaks, and what was written before it stays.

`upsertProduct_allOrNothing_iff`: a failing save leaves products, stock and
breaks as they were exactly if it stores nothing before its refusal that was
not there, the product with its reference to the other system included.
-/

namespace DealFlow360

open Program

/-! ## The product an input describes -/

namespace ProductInput

def current (input : ProductInput) (store : Store) : Option Product := input.id.bind store.getProduct

/-- The product as it is stored. -/
def saved (input : ProductInput) (w : World) : Product :=
  input.build (input.current w.store) (input.id.getD w.nextUuid)

def rows (input : ProductInput) (w : World) : List StockLevel :=
  (input.stock.getD []).map (·.row (input.saved w).id)

end ProductInput

/-- The checks that are made before anything is stored. -/
structure Checked (platform : Platform) (store : Store) (input : ProductInput) (actor : Actor) (product : Product) :
    Prop where
  permitted : canWriteProducts actor = true
  known : ∀ id ∈ input.id, (store.getProduct id).isSome
  named : product.sku ≠ "" ∧ product.name ≠ ""
  short : (codeUnits product.name).length ≤ 160 ∧ (codeUnits product.sku).length ≤ 80
  priced : 0 ≤ product.listPrice ∧ 0 ≤ product.cost
  taxed : (input.taxRatePercent.any fun rate => rate.any notPercent) = false
  unique : ∀ item ∈ store.products,
    platform.toLowerCase item.sku = platform.toLowerCase product.sku → some item.id = input.id

/-- What a stock row that comes with a product must satisfy. -/
def rowAccepted (store : Store) (row : StockLevel) : Bool :=
  !decide (row.quantityOnHand < 0 ∨ row.reserved < 0 ∨ row.incoming.getD 0 < 0)
    && store.warehouses.any fun item => item.id = row.warehouseId

/-- The breaks of an input with their ids, counted on from `base`. -/
def sentBreaks (productId base : Id) (inputs : List ProductBreakInput) : List QuantityBreak :=
  inputs.mapIdx fun index item =>
    { id := item.id.getD (base + index)
      name := item.name
      productId
      customerTier := item.customerTier
      minQuantity := item.minQuantity
      maxQuantity := item.maxQuantity
      adjustmentKind := item.adjustmentKind
      adjustmentValue := item.adjustmentValue
      active := some (item.active ≠ some false) }

/-- The breaks a save would leave behind. -/
def nextBreaks (store : Store) (productId base : Id) (inputs : List ProductBreakInput) : List QuantityBreak :=
  (store.quantityBreaks.filter fun item => item.productId ≠ productId) ++ sentBreaks productId base inputs

/-- The breaks sent are within the actor's permission and pass their validation. -/
def BreaksAccepted (store : Store) (actor : Actor) (productId base : Id) (inputs : List ProductBreakInput) : Prop :=
  ((inputs.any fun item => item.adjustmentKind = .percent) → actorHas (some actor) "dealflow.catalog.write" = true) ∧
    (validateQuantityBreaks (nextBreaks store productId base inputs)).isOk = true

/-- The three tables a save writes are as they were. -/
structure SameCatalog (store store' : Store) : Prop where
  products : store'.products = store.products
  stock : store'.stock = store.stock
  quantityBreaks : store'.quantityBreaks = store.quantityBreaks

/-! ## Stock rows -/

/-- What holds while the rows of a stored product are written. -/
def Stocking (store : Store) (productId : Id) (w : World) : Prop :=
  w.store.warehouses = store.warehouses ∧ (w.store.getProduct productId).isSome

def putStock (row : StockLevel) (w : World) : World := { w with store := w.store.upsertStock row }

/-- A stock row of a stored product is written, or refused without a trace. -/
theorem upsertStock_run {store : Store} {row : StockLevel} {actor : Actor} {w : World}
    (hactor : canWriteProducts actor = true) (h : Stocking store row.productId w) :
    if rowAccepted store row then upsertStock row actor w = .ok PUnit.unit (putStock row w)
    else ∃ e, upsertStock row actor w = .error e w := by
  have hproduct : ¬(w.store.getProduct row.productId).isNone = true := by
    rw [Option.isNone_iff_eq_none, ← Option.not_isSome_iff_eq_none, not_not]
    exact h.2
  have hallowed : ¬¬canWriteProducts actor = true := not_not.mpr hactor
  unfold upsertStock
  rw [throwIf_bind, if_neg hallowed, throwIf_bind]
  by_cases hquantities : row.quantityOnHand < 0 ∨ row.reserved < 0 ∨ row.incoming.getD 0 < 0
  · have hrefused : rowAccepted store row = false := by
      unfold rowAccepted
      rw [decide_eq_true hquantities]
      rfl
    rw [hrefused, if_neg Bool.false_ne_true, if_pos hquantities]
    exact ⟨_, rfl⟩
  · have haccepted : rowAccepted store row = store.warehouses.any fun item => item.id = row.warehouseId := by
      unfold rowAccepted
      rw [decide_eq_false hquantities]
      rfl
    rw [haccepted, if_neg hquantities, read_bind, throwIf_bind, h.1]
    by_cases hwarehouse : (store.warehouses.any fun item => item.id = row.warehouseId) = true
    · rw [if_pos hwarehouse, if_neg (not_not.mpr hwarehouse), throwIf_bind, if_neg hproduct]
      rfl
    · rw [if_neg hwarehouse, if_pos hwarehouse]
      exact ⟨_, rfl⟩

theorem guarded_upsertStock {store : Store} {productId : Id} {actor : Actor} (hactor : canWriteProducts actor = true) :
    Loops.Guarded (Stocking store productId) (fun row : ProductStockInput => upsertStock (row.row productId) actor)
      (fun _ row => rowAccepted store (row.row productId)) (fun row => putStock (row.row productId)) where
  accepted := by
    intro row w hstocking haccepted
    have hrun := @upsertStock_run _ (row.row productId) _ _ hactor hstocking
    rwa [if_pos haccepted] at hrun
  refused := by
    intro row w hstocking hrefused
    have hrun := @upsertStock_run _ (row.row productId) _ _ hactor hstocking
    rwa [if_neg (by rw [hrefused]; exact Bool.false_ne_true)] at hrun
  keeps := fun hstocking _ => hstocking

/-- The stock after rows are written in order. -/
def stockAfter (rows stock : List StockLevel) : List StockLevel :=
  rows.foldl (fun stock row => Table.upsert StockLevel.key row stock) stock

theorem wrote_putStock (productId : Id) (l : List ProductStockInput) (w : World) :
    Loops.wrote (fun row : ProductStockInput => putStock (row.row productId)) l w =
      { w with store := { w.store with stock := stockAfter (l.map (·.row productId)) w.store.stock } } := by
  induction l generalizing w with
  | nil => rfl
  | cons row l ih => exact ih (putStock (row.row productId) w)

/-! ## Breaks -/

theorem replaceSentBreaks_run (productId : Id) (inputs : Option (List ProductBreakInput)) (actor : Actor) (w : World) :
    ((∀ sent ∈ inputs, BreaksAccepted w.store actor productId w.nextUuid sent) ∧
        ∃ w', replaceSentBreaks productId inputs actor w = .ok PUnit.unit w') ∨
      ((∃ sent ∈ inputs, ¬BreaksAccepted w.store actor productId w.nextUuid sent) ∧
        ∃ e w', replaceSentBreaks productId inputs actor w = .error e w' ∧ w'.store = w.store) := by
  cases inputs with
  | none => exact .inl ⟨fun sent hsent => absurd hsent (Option.not_mem_none sent), w, rfl⟩
  | some sent =>
      have hbuild : buildBreaks productId sent w
          = .ok (sentBreaks productId w.nextUuid sent) { w with nextUuid := w.nextUuid + sent.length } := rfl
      unfold replaceSentBreaks replaceProductBreaks
      dsimp only
      rw [throwIf_bind]
      by_cases hpercent : (sent.any fun item => item.adjustmentKind = .percent) = true
          ∧ ¬actorHas (some actor) "dealflow.catalog.write" = true
      · rw [if_pos hpercent]
        exact .inr ⟨⟨sent, rfl, fun h => hpercent.2 (h.1 hpercent.1)⟩, _, w, rfl, rfl⟩
      · have hpermitted := fun hany => not_not.mp fun hnot => hpercent ⟨hany, hnot⟩
        rw [if_neg hpercent, read_bind, bind_of_ok hbuild]
        cases hvalid : validateQuantityBreaks (nextBreaks w.store productId w.nextUuid sent) with
        | ok next =>
            have hlift : ∀ w' : World, lift (validateQuantityBreaks (nextBreaks w.store productId w.nextUuid sent)) w'
                = .ok next w' := fun w' => by
              rw [hvalid]
              rfl
            refine .inl ⟨?_, _, bind_of_ok (hlift _)⟩
            rintro _ ⟨⟩
            exact ⟨hpermitted, by rw [hvalid]; rfl⟩
        | error e =>
            have hlift : ∀ w' : World, lift (validateQuantityBreaks (nextBreaks w.store productId w.nextUuid sent)) w'
                = .error e w' := fun w' => by
              rw [hvalid]
              rfl
            refine .inr ⟨⟨sent, rfl, fun h => ?_⟩, e, _, bind_of_error (hlift _), rfl⟩
            rw [BreaksAccepted, hvalid] at h
            exact absurd h.2 Bool.false_ne_true

/-! ## The whole save -/

theorem checkProduct_eq_ok {platform : Platform} {input : ProductInput} {actor : Actor} {product : Product}
    {w w' : World}
    {u : PUnit} (hpermitted : canWriteProducts actor = true)
    (hknown : ∀ id ∈ input.id, (w.store.getProduct id).isSome) :
    checkProduct platform w.store input (input.current w.store) product w = .ok u w' ↔
      Checked platform w.store input actor product ∧ w = w' := by
  have hown : input.id.or ((input.current w.store).map (·.id)) = input.id := by
    unfold ProductInput.current
    cases input.id <;> rfl
  unfold checkProduct
  simp only [bind_eq_ok, throwIf_eq_ok, hown]
  constructor
  · rintro ⟨_, _, ⟨hnamed, rfl⟩, _, _, ⟨hshort, rfl⟩, _, _, ⟨hpriced, rfl⟩, _, _, ⟨htaxed, rfl⟩, hunique, rfl⟩
    refine ⟨?_, rfl⟩
    exact
      { permitted := hpermitted
        known := hknown
        named := not_or.mp hnamed
        short := (not_or.mp hshort).imp not_lt.mp not_lt.mp
        priced := (not_or.mp hpriced).imp not_lt.mp not_lt.mp
        taxed := Bool.eq_false_iff.mpr htaxed
        unique := by simpa using hunique }
  · rintro ⟨h, rfl⟩
    have hshort := not_or.mpr (h.short.imp not_lt.mpr not_lt.mpr)
    have hpriced := not_or.mpr (h.priced.imp not_lt.mpr not_lt.mpr)
    have hunique : ¬(w.store.products.any fun item =>
        platform.toLowerCase item.sku = platform.toLowerCase product.sku && some item.id ≠ input.id) = true := by
      simpa using h.unique
    exact ⟨u, w, ⟨not_or.mpr h.named, rfl⟩, u, w, ⟨hshort, rfl⟩, u, w, ⟨hpriced, rfl⟩, u, w,
      ⟨Bool.eq_false_iff.mp h.taxed, rfl⟩, hunique, rfl⟩

/-- What is asked of a save, and of its later parts. -/
structure Accepted (input : ProductInput) (actor : Actor) (w : World) : Prop where
  rows : ∀ row ∈ input.rows w, rowAccepted w.store row = true
  breaks : ∀ sent ∈ input.quantityBreaks,
    BreaksAccepted w.store actor (input.saved w).id (w.nextUuid + 1) sent

/-- The store a save leaves that its rows or its breaks broke off. -/
def brokenOff (input : ProductInput) (w : World) : Store :=
  { w.store with
    products := Table.upsert (·.id) (input.saved w) w.store.products
    stock := stockAfter ((input.rows w).takeWhile (rowAccepted w.store)) w.store.stock }

/-- How a save ends. -/
inductive SaveOutcome (env : Env) (input : ProductInput) (actor : Actor) (w : World) : Prop
  | refused (h : ¬Checked env.options.platform w.store input actor (input.saved w))
      (run : ∃ e w', upsertProduct env input actor w = .error e w' ∧ w'.store = w.store)
  | saved (hchecked : Checked env.options.platform w.store input actor (input.saved w))
      (h : Accepted input actor w) (run : ∃ product w', upsertProduct env input actor w = .ok product w')
  | broken (hchecked : Checked env.options.platform w.store input actor (input.saved w))
      (h : ¬Accepted input actor w)
      (run : ∃ e w', upsertProduct env input actor w = .error e w' ∧ w'.store = brokenOff input w)

theorem currentProduct_eq (store : Store) (input : ProductInput) :
    ((∀ id ∈ input.id, (store.getProduct id).isSome) ∧ currentProduct store input.id = .ok (input.current store)) ∨
      ((∃ id ∈ input.id, ¬(store.getProduct id).isSome) ∧ ∃ e, currentProduct store input.id = .error e) := by
  unfold currentProduct ProductInput.current
  cases input.id with
  | none => exact .inl ⟨fun id hid => absurd hid (Option.not_mem_none id), rfl⟩
  | some id =>
      cases hproduct : store.getProduct id with
      | none =>
          refine .inr ⟨⟨id, rfl, by rw [hproduct]; exact Bool.false_ne_true⟩,
            notFound "Product not found" [("id", .id id)],
            ?_⟩
          dsimp only
          rw [hproduct]
      | some product =>
          refine .inl ⟨?_, ?_⟩
          · rintro _ ⟨⟩
            rw [hproduct]
            rfl
          · dsimp only
            rw [Option.bind_some, hproduct]

theorem saved_eq (input : ProductInput) (w : World) :
    input.build (input.current w.store) (input.id.getD (((input.current w.store).map (·.id)).getD w.nextUuid))
      = input.saved w := by
  unfold ProductInput.saved ProductInput.current
  cases input.id <;> rfl

/-- The stored product, with the id drawn for it. -/
def storedWorld (input : ProductInput) (w : World) : World :=
  { w with nextUuid := w.nextUuid + 1, store := w.store.upsertProduct (input.saved w) }

/-- After the checks, the rows decide and then the breaks. -/
theorem outcome_of_checked {env : Env} {input : ProductInput} {actor : Actor} {w : World}
    (hchecked : Checked env.options.platform w.store input actor (input.saved w))
    (hstart : upsertProduct env input actor w =
      (Loops.loop (fun row : ProductStockInput => upsertStock (row.row (input.saved w).id) actor)
        (input.stock.getD []) >>= fun _ =>
        replaceSentBreaks (input.saved w).id input.quantityBreaks actor >>= fun _ => pure (input.saved w))
        (storedWorld input w)) :
    SaveOutcome env input actor w := by
  have hguarded := @guarded_upsertStock w.store (input.saved w).id _ hchecked.permitted
  have hstocking : Stocking w.store (input.saved w).id (storedWorld input w) := by
    refine ⟨rfl, ?_⟩
    have hlookup : (storedWorld input w).store.getProduct (input.saved w).id = some (input.saved w) :=
      @Table.lookup_upsert_self _ _ _ (fun item : Product => item.id) (input.saved w) w.store.products
    rw [hlookup]
    rfl
  have htaken := hguarded.taken_eq_takeWhile (p := fun row => rowAccepted w.store (row.row (input.saved w).id))
    (fun _ => rfl) (input.stock.getD []) hstocking
  rcases hguarded.run (input.stock.getD []) (storedWorld input w) hstocking with ⟨hall, hrun⟩ | ⟨hsome, e, hrun⟩
  · rw [bind_of_ok hrun] at hstart
    have hrows : ∀ row ∈ input.rows w, rowAccepted w.store row = true := by
      intro row hrow
      obtain ⟨sent, hsent, rfl⟩ := List.mem_map.mp hrow
      exact List.takeWhile_eq_self_iff.mp (htaken.symm.trans hall) sent hsent
    rw [wrote_putStock] at hstart
    rcases replaceSentBreaks_run (input.saved w).id input.quantityBreaks actor
        { storedWorld input w with
          store := { (storedWorld input w).store with
                     stock := stockAfter (input.rows w) (storedWorld input w).store.stock } } with
      ⟨hbreaks, w', hreplace⟩ | ⟨⟨sent, hsent, hbreaks⟩, e, w', hreplace, hstore⟩
    · exact .saved hchecked ⟨hrows, hbreaks⟩ ⟨input.saved w, w', hstart.trans (bind_of_ok hreplace)⟩
    · refine .broken hchecked (fun h => hbreaks (h.breaks sent hsent))
        ⟨e, w', hstart.trans (bind_of_error hreplace), hstore.trans ?_⟩
      unfold brokenOff
      rw [List.takeWhile_eq_self_iff.mpr hrows]
      rfl
  · refine .broken hchecked (fun h => hsome ?_) ⟨e, _, hstart.trans (bind_of_error hrun), ?_⟩
    · rw [htaken, List.takeWhile_eq_self_iff]
      exact fun sent hsent => h.rows _ (List.mem_map_of_mem hsent)
    · have hwritten : ((input.stock.getD []).takeWhile fun row => rowAccepted w.store (row.row (input.saved w).id)).map
          (·.row (input.saved w).id) = (input.rows w).takeWhile (rowAccepted w.store) := by
        unfold ProductInput.rows
        rw [List.takeWhile_map]
        rfl
      rw [wrote_putStock, htaken, hwritten]
      rfl

theorem upsertProduct_outcome (env : Env) (input : ProductInput) (actor : Actor) (w : World) :
    SaveOutcome env input actor w := by
  by_cases hpermitted : canWriteProducts actor = true
  · rcases currentProduct_eq w.store input with ⟨hknown, hcurrent⟩ | ⟨⟨id, hid, hunknown⟩, e, hcurrent⟩
    · have huuid : randomUUID w = .ok w.nextUuid { w with nextUuid := w.nextUuid + 1 } := rfl
      have hstart : upsertProduct env input actor w =
          (checkProduct env.options.platform w.store input (input.current w.store) (input.saved w) >>= fun _ =>
            updateStore (Store.upsertProduct (input.saved w)) >>= fun _ =>
              Loops.loop (fun row : ProductStockInput => upsertStock (row.row (input.saved w).id) actor)
                (input.stock.getD []) >>= fun _ =>
                replaceSentBreaks (input.saved w).id input.quantityBreaks actor >>= fun _ => pure (input.saved w))
            { w with nextUuid := w.nextUuid + 1 } := by
        unfold upsertProduct
        rw [throwIf_bind, if_neg (not_not.mpr hpermitted), read_bind, lift_bind hcurrent, bind_of_ok huuid, saved_eq]
        rfl
      cases hcheck : checkProduct env.options.platform w.store input (input.current w.store) (input.saved w)
          { w with nextUuid := w.nextUuid + 1 } with
      | error e w' =>
          have hsame : ({ w with nextUuid := w.nextUuid + 1 } : World) = w' := Keeps.of_error (R := Eq) hcheck
          refine .refused (fun h => ?_) ⟨e, w', hstart.trans (bind_of_error hcheck), by rw [← hsame]⟩
          have hok := (checkProduct_eq_ok (w := { w with nextUuid := w.nextUuid + 1 }) (u := PUnit.unit) hpermitted
            hknown).mpr ⟨h, rfl⟩
          cases hok.symm.trans hcheck
      | ok u w' =>
          obtain ⟨hchecked, rfl⟩ :=
            (checkProduct_eq_ok (w := { w with nextUuid := w.nextUuid + 1 }) hpermitted hknown).mp hcheck
          rw [bind_of_ok hcheck] at hstart
          exact outcome_of_checked hchecked hstart
    · refine .refused (fun h => hunknown (h.known id hid)) ⟨e, w, ?_, rfl⟩
      unfold upsertProduct
      rw [throwIf_bind, if_neg (not_not.mpr hpermitted), read_bind, hcurrent]
      rfl
  · refine .refused (fun h => hpermitted h.permitted)
      ⟨forbidden "You are not allowed to create or edit products", w, ?_, rfl⟩
    unfold upsertProduct
    rw [throwIf_bind, if_pos hpermitted]

/-! ## All or nothing -/

/-- Nothing is stored before a refusal, nothing is refused, or what is stored before the refusal was there already.
-/
def Traceless (env : Env) (input : ProductInput) (actor : Actor) (w : World) : Prop :=
  ¬Checked env.options.platform w.store input actor (input.saved w) ∨
    Accepted input actor w ∨
    (w.store.getProduct (input.saved w).id = some (input.saved w) ∧
      stockAfter ((input.rows w).takeWhile (rowAccepted w.store)) w.store.stock = w.store.stock)

theorem sameCatalog_brokenOff_iff (input : ProductInput) (w : World) :
    SameCatalog w.store (brokenOff input w) ↔
      w.store.getProduct (input.saved w).id = some (input.saved w) ∧
        stockAfter ((input.rows w).takeWhile (rowAccepted w.store)) w.store.stock = w.store.stock := by
  have hproducts : Table.upsert (·.id) (input.saved w) w.store.products = w.store.products ↔
      w.store.getProduct (input.saved w).id = some (input.saved w) :=
    @Table.upsert_eq_self_iff _ _ _ (fun item : Product => item.id) _ _
  rw [← hproducts]
  exact ⟨fun h => ⟨h.products, h.stock⟩, fun h => ⟨h.1, h.2, rfl⟩⟩

/-- A failing save leaves products, stock and breaks as they were exactly if it stores nothing before the refusal
that was not there. -/
theorem upsertProduct_allOrNothing_iff (env : Env) (input : ProductInput) (actor : Actor) (w : World) :
    (∀ e w', upsertProduct env input actor w = .error e w' → SameCatalog w.store w'.store) ↔
      Traceless env input actor w := by
  rw [Traceless, ← sameCatalog_brokenOff_iff]
  cases upsertProduct_outcome env input actor w with
  | refused h run =>
      obtain ⟨e, w', hrun, hstore⟩ := run
      refine iff_of_true (fun e' w'' hrun' => ?_) (.inl h)
      cases hrun.symm.trans hrun'
      rw [hstore]
      exact ⟨rfl, rfl, rfl⟩
  | saved hchecked h run =>
      obtain ⟨product, w', hrun⟩ := run
      refine iff_of_true (fun e' w'' hrun' => ?_) (.inr (.inl h))
      cases hrun.symm.trans hrun'
  | broken hchecked h run =>
      obtain ⟨e, w', hrun, hstore⟩ := run
      constructor
      · intro hsame
        exact .inr (.inr (hstore ▸ hsame e w' hrun))
      · rintro (hrefused | haccepted | hsame) e' w'' hrun'
        · exact absurd hchecked hrefused
        · exact absurd haccepted h
        · cases hrun.symm.trans hrun'
          rwa [hstore]

/-- May write products, but not the catalog. -/
def productOfficer : Actor where
  id := "olga"
  permissions := ["dealflow.catalog.products.write"]

/-- A new product that brings a percent break along. -/
def discountBypass : ProductInput where
  sku := some "EA2"
  name := some "Plan"
  listPrice := some 5000
  cost := some 800
  quantityBreaks := some
    [{ name := "20%", minQuantity := 1, adjustmentKind := .percent, adjustmentValue := -20 }]

theorem discountBypass_checked :
    Checked plainPlatform startWorld.store discountBypass productOfficer (discountBypass.saved startWorld) where
  permitted := by decide
  known := fun id hid => absurd hid (Option.not_mem_none id)
  named := by decide
  short := by decide
  priced := by decide
  taxed := rfl
  unique := by decide +kernel

/-- The break is forbidden, and the product stays. -/
theorem discountBypass_leaves_product :
    ∃ e w', upsertProduct { options := plainOptions, outside := {} } discountBypass productOfficer startWorld
        = .error e w' ∧ ¬SameCatalog startWorld.store w'.store := by
  have hforbidden : ¬Accepted discountBypass productOfficer startWorld :=
    fun h => absurd ((h.breaks _ rfl).1 (by decide)) (by decide)
  cases upsertProduct_outcome { options := plainOptions, outside := {} } discountBypass productOfficer startWorld with
  | refused h run => exact absurd discountBypass_checked h
  | saved hchecked h run => exact absurd h hforbidden
  | broken hchecked h run =>
      obtain ⟨e, w', hrun, hstore⟩ := run
      refine ⟨e, w', hrun, ?_⟩
      rw [hstore, sameCatalog_brokenOff_iff]
      have hnew : startWorld.store.getProduct (discountBypass.saved startWorld).id = none := by decide
      rw [hnew]
      exact fun h => Option.some_ne_none _ h.1.symm

end DealFlow360

import DealFlow360.BreakSelection
import DealFlow360.Defaults
import DealFlow360.Lib.Loops

/-!
# The configuration tables of the database

The Prisma store keeps quantity breaks, role authorities and the governance
settings in tables of their own. A list is replaced by clearing its table and
inserting the new rows one by one, outside any transaction, and an empty table
reads as the defaults.

A table is a list of rows with the constraints the database checks, and a fault
says which row write fails. The rewriting loop is the one of `Lib.Loops`, so
`rewriteRows_run` says how it ends; from there

- `failedReplace_keeps_iff`: a replace that fails leaves what was stored
  exactly if the table is not cleared or nothing was stored;
- `replaceRows_readsBack_iff` and `replaceGovernance_readsBack_iff`: when a
  successful replace reads back;
- `configuration_readsBack_iff`: the three together, over both ways to the
  database, the delegate and the raw statement.
-/

namespace DealFlow360

open Program

/-! ## Tables and clients -/

/-- The ways to the tables a client offers: its typed delegates, raw queries and raw statements. -/
structure PrismaClient where
  delegates : Bool
  queryRaw : Bool
  executeRaw : Bool

inductive DatabaseError where
  | refused
  deriving DecidableEq, Repr

/-- What a database makes of the statements on a table: whether it answers a query, clears the table, and takes a row
beside the rows stored. -/
structure Database (Row : Type) where
  reads : Bool
  clears : Bool
  takes : List Row → Row → Bool

section Tables

variable {Row : Type}

def deleteMany (db : Database Row) : EStateM DatabaseError (List Row) PUnit := do
  throwIf (¬db.clears) .refused
  write fun _ => []

def create (db : Database Row) (row : Row) : EStateM DatabaseError (List Row) PUnit := do
  let rows ← read id
  throwIf (¬db.takes rows row) .refused
  write fun rows => rows ++ [row]

def rewriteRows (db : Database Row) (items : List Row) : EStateM DatabaseError (List Row) PUnit := do
  deleteMany db
  Loops.loop (create db) items

/-- The rows a reader gets: the table's through either way, the defaults where it is empty or cannot be read. -/
def listRows (client : PrismaClient) (db : Database Row) (defaults rows : List Row) : List Row :=
  if ¬db.reads then defaults
  else if ¬client.delegates ∧ ¬client.queryRaw then defaults
  else if rows.isEmpty then defaults
  else rows

/-- Rewrite through the delegate, else by raw statements; a client without either skips them. -/
def replaceRows (client : PrismaClient) (db : Database Row) (defaults items : List Row) :
    EStateM DatabaseError (List Row) (List Row) := do
  (if client.delegates then rewriteRows db items
    else if client.executeRaw then rewriteRows db items
    else pure PUnit.unit)
  read (listRows client db defaults)

end Tables

/-! ## The three configurations -/

namespace PrismaStore

/-- A break as a row: `active` is a column of its own. -/
def quantityBreakRow (item : QuantityBreak) : QuantityBreak :=
  { item with active := some (item.active ≠ some false) }

def listQuantityBreaks (client : PrismaClient) (db : Database QuantityBreak) : List QuantityBreak →
    List QuantityBreak :=
  listRows client db defaultQuantityBreaks

def replaceQuantityBreaks (client : PrismaClient) (db : Database QuantityBreak) (items : List QuantityBreak) :
    EStateM DatabaseError (List QuantityBreak) (List QuantityBreak) :=
  replaceRows client db defaultQuantityBreaks (items.map quantityBreakRow)

def listRoleAuthorities (client : PrismaClient) (db : Database RoleAuthority) : List RoleAuthority →
    List RoleAuthority :=
  listRows client db defaultRoleAuthorities

def replaceRoleAuthorities (client : PrismaClient) (db : Database RoleAuthority) (items : List RoleAuthority) :
    EStateM DatabaseError (List RoleAuthority) (List RoleAuthority) :=
  replaceRows client db defaultRoleAuthorities items

/-- The one governance row, where there is one. -/
def getGovernance (client : PrismaClient) (db : Database GovernanceConfig) (row : Option GovernanceConfig) :
    GovernanceConfig :=
  if ¬db.reads then defaultGovernance
  else if ¬client.delegates ∧ ¬client.queryRaw then defaultGovernance
  else row.getD defaultGovernance

/-- What the raw statement leaves in the row: it names six of the columns, an update keeps the others and an insert
takes the defaults of the schema. -/
def rawGovernanceRow (config : GovernanceConfig) (row : Option GovernanceConfig) : GovernanceConfig :=
  let kept : GovernanceConfig := row.getD
    { config with
      taxRatePercent := 0
      staleQuoteDays := 7
      unusualDiscountPercent := 25
      largeDealNetTotal := 50000
      maxCommercialDiscountPercent := 25
      allowLoyaltyStacking := true }
  { kept with
    cumulativeWarningLimit := config.cumulativeWarningLimit
    materialDiscountDeltaPp := config.materialDiscountDeltaPp
    materialTotalDeltaRatio := config.materialTotalDeltaRatio
    highValueNetTotal := config.highValueNetTotal
    maxApprovalLevels := config.maxApprovalLevels }

def replaceGovernance (client : PrismaClient) (db : Database GovernanceConfig) (config : GovernanceConfig) :
    EStateM DatabaseError (Option GovernanceConfig) GovernanceConfig := do
  let row ← read id
  (if client.delegates then do
    throwIf (¬db.takes row.toList config) .refused
    write fun _ => some config
  else if client.executeRaw then do
    throwIf (¬db.takes row.toList (rawGovernanceRow config row)) .refused
    write fun row => some (rawGovernanceRow config row)
  else pure PUnit.unit)
  read (getGovernance client db)

end PrismaStore

/-! ## What a replace leaves -/

section Replace

variable {Row : Type} {client : PrismaClient} {db : Database Row}

def append (row : Row) (rows : List Row) : List Row := rows ++ [row]

/-- The rows inserted before the first one the database refuses. -/
def inserted (db : Database Row) (items : List Row) : List Row := Loops.taken db.takes append items []

theorem guarded_create (db : Database Row) : Loops.Guarded (fun _ => True) (create db) db.takes append where
  accepted := by
    intro row rows _ htakes
    unfold create
    rw [read_bind, throwIf_bind, id, if_neg (not_not.mpr htakes)]
    rfl
  refused := by
    intro row rows _ hrefused
    unfold create
    rw [read_bind, throwIf_bind, id, if_pos (Bool.eq_false_iff.mp hrefused)]
    exact ⟨_, rfl⟩
  keeps := fun _ _ => trivial

theorem wrote_append (items rows : List Row) : Loops.wrote append items rows = rows ++ items := by
  induction items generalizing rows with
  | nil => exact (List.append_nil rows).symm
  | cons item items ih =>
      refine (ih (append item rows)).trans ?_
      rw [append, List.append_assoc]
      rfl

/-- A rewrite fails on a table that is not cleared, goes through, or stops at the first row refused. -/
theorem rewriteRows_run (items rows : List Row) :
    (db.clears = false ∧ ∃ e, rewriteRows db items rows = .error e rows) ∨
      (db.clears = true ∧
        ((inserted db items = items ∧ rewriteRows db items rows = .ok PUnit.unit items) ∨
          (inserted db items ≠ items ∧ ∃ e, rewriteRows db items rows = .error e (inserted db items)))) := by
  cases hclears : db.clears with
  | false =>
      refine .inl ⟨rfl, .refused, bind_of_error ?_⟩
      unfold deleteMany
      rw [throwIf_bind, if_pos (Bool.eq_false_iff.mp hclears)]
  | true =>
      have hdelete : deleteMany db rows = .ok PUnit.unit [] := by
        unfold deleteMany
        rw [throwIf_bind, if_neg (not_not.mpr hclears)]
        rfl
      have hrewrite : rewriteRows db items rows = Loops.loop (create db) items [] := bind_of_ok hdelete
      rw [hrewrite]
      have hrun := (guarded_create db).run items [] trivial
      rw [wrote_append, wrote_append, List.nil_append, List.nil_append] at hrun
      exact .inr ⟨rfl, hrun⟩

/-- A client that can write at all. -/
def PrismaClient.writes (client : PrismaClient) : Bool := client.delegates || client.executeRaw

theorem replaceRows_eq (defaults items : List Row) :
    replaceRows client db defaults items =
      (if client.writes then rewriteRows db items else pure PUnit.unit) >>= fun _ =>
        read (listRows client db defaults) := by
  unfold replaceRows PrismaClient.writes
  cases client.delegates <;> rfl

/-- A failing replace has lost nothing: it could not begin, no row is refused, or the rows it got to insert are
those the table held. -/
def LosesNothing (client : PrismaClient) (db : Database Row) (items rows : List Row) : Prop :=
  client.writes = false ∨ db.clears = false ∨ inserted db items = items ∨ inserted db items = rows

theorem replaceRows_keeps_iff (defaults items rows : List Row) :
    (∀ e rows', replaceRows client db defaults items rows = .error e rows' → rows' = rows) ↔
      LosesNothing client db items rows := by
  unfold LosesNothing
  rw [replaceRows_eq]
  cases hwrites : client.writes with
  | false =>
      refine iff_of_true (fun e rows' h => ?_) (.inl rfl)
      cases h
  | true =>
      rw [if_pos rfl]
      rcases @rewriteRows_run _ db items rows with ⟨hclears, e, hrun⟩ | ⟨hclears, ⟨hall, hrun⟩ | ⟨hsome, e, hrun⟩⟩
      · refine iff_of_true (fun e' rows' h => ?_) (.inr (.inl hclears))
        cases (bind_of_error hrun).symm.trans h
        rfl
      · refine iff_of_true (fun e' rows' h => ?_) (.inr (.inr (.inl hall)))
        cases (bind_of_ok hrun).symm.trans h
      · constructor
        · intro h
          exact .inr (.inr (.inr (h e _ (bind_of_error hrun))))
        · rintro (hnone | hkept | hall | hsame) e' rows' h
          · cases hnone
          · cases hclears.symm.trans hkept
          · exact absurd hall hsome
          · cases (bind_of_error hrun).symm.trans h
            exact hsame

end Replace

/-- Wherever a row write fails, the breaks and the authorities stored before are those stored afterwards exactly if
the replace loses nothing. -/
theorem failedReplace_keeps_iff (client : PrismaClient) (breaksDb : Database QuantityBreak)
    (authoritiesDb : Database RoleAuthority) (breaks breakRows : List QuantityBreak)
    (authorities authorityRows : List RoleAuthority) :
    ((∀ e rows', PrismaStore.replaceQuantityBreaks client breaksDb breaks breakRows = .error e rows' →
          rows' = breakRows) ↔
        LosesNothing client breaksDb (breaks.map PrismaStore.quantityBreakRow) breakRows) ∧
      ((∀ e rows', PrismaStore.replaceRoleAuthorities client authoritiesDb authorities authorityRows = .error e rows' →
          rows' = authorityRows) ↔
        LosesNothing client authoritiesDb authorities authorityRows) :=
  ⟨replaceRows_keeps_iff .., replaceRows_keeps_iff ..⟩

/-! ## A break of an unknown product -/

def delegateClient : PrismaClient where
  delegates := true
  queryRaw := true
  executeRaw := true

/-- The breaks' table under its constraints: ids are unique, and the product is a row of its own table. -/
def constrainedBreaks (products : List Id) : Database QuantityBreak where
  reads := true
  clears := true
  takes rows row := decide (row.id ∉ rows.map (·.id)) && decide (row.productId ∈ products)

def volumeBreak : QuantityBreak where
  id := 71
  name := "Volume"
  productId := 11
  minQuantity := 10
  adjustmentKind := .fixed
  adjustmentValue := 3700
  active := some true

/-- The same break of a product that does not exist. -/
def unknownBreak : QuantityBreak := { volumeBreak with id := 72, productId := 99 }

/-- One refused row, and the table is empty; it reads as the defaults. -/
theorem unknownBreak_clears_table :
    ∃ rows', PrismaStore.replaceQuantityBreaks delegateClient (constrainedBreaks [11, 12]) [unknownBreak] [volumeBreak]
        = .error .refused rows' ∧ rows' ≠ [volumeBreak] ∧
      PrismaStore.listQuantityBreaks delegateClient (constrainedBreaks [11, 12]) rows' = defaultQuantityBreaks :=
  ⟨[], rfl, (List.cons_ne_nil _ _).symm, rfl⟩

/-! ## Reading back -/

section ReadBack

variable {Row : Type} {client : PrismaClient} {db : Database Row}

/-- The client reaches the tables, by its delegates or by raw SQL. -/
def PrismaClient.Reaches (client : PrismaClient) : Prop :=
  client.delegates = true ∨ (client.queryRaw = true ∧ client.executeRaw = true)

theorem listRows_eq (hreads : db.reads = true) (hclient : client.Reaches) (defaults rows : List Row) :
    listRows client db defaults rows = if rows.isEmpty then defaults else rows := by
  have hways : ¬(¬client.delegates = true ∧ ¬client.queryRaw = true) := by
    rintro ⟨hdelegates, hquery⟩
    exact hclient.elim hdelegates fun h => hquery h.1
  unfold listRows
  rw [if_neg (not_not.mpr hreads), if_neg hways]

/-- A list that was stored reads back exactly if it is not empty, or its table refuses to be cleared. -/
theorem replaceRows_readsBack_iff (hreads : db.reads = true) (hclient : client.Reaches) {defaults : List Row}
    (hdefaults : defaults ≠ []) (items rows : List Row) :
    (∀ answer rows', replaceRows client db defaults items rows = .ok answer rows' →
        listRows client db defaults rows' = items) ↔ items ≠ [] ∨ db.clears = false := by
  have hwrites : client.writes = true := by
    unfold PrismaClient.writes
    rw [Bool.or_eq_true]
    exact hclient.imp_right (·.2)
  rw [replaceRows_eq, if_pos hwrites]
  rcases @rewriteRows_run _ db items rows with ⟨hclears, e, hrun⟩ | ⟨hclears, ⟨hall, hrun⟩ | ⟨hsome, e, hrun⟩⟩
  · refine iff_of_true (fun answer rows' h => ?_) (.inr hclears)
    cases (bind_of_error hrun).symm.trans h
  · have hanswer : ∀ answer rows', (rewriteRows db items >>= fun _ => read (listRows client db defaults)) rows
        = .ok answer rows' → rows' = items := by
      intro answer rows' h
      cases (bind_of_ok hrun).symm.trans h
      rfl
    by_cases hempty : items = []
    · refine iff_of_false (fun h => ?_) fun h => ?_
      · have hread := h _ items (bind_of_ok hrun)
        rw [listRows_eq hreads hclient, hempty] at hread
        exact hdefaults hread
      · exact h.elim (· hempty) fun hkept => by cases hclears.symm.trans hkept
    · refine iff_of_true (fun answer rows' h => ?_) (.inl hempty)
      rw [hanswer answer rows' h, listRows_eq hreads hclient, if_neg (mt List.isEmpty_iff.mp hempty)]
  · refine iff_of_true (fun answer rows' h => ?_) (.inl fun hempty => hsome ?_)
    · cases (bind_of_error hrun).symm.trans h
    · rw [hempty]
      rfl

end ReadBack

/-- What validation hands on is what a row holds. -/
theorem quantityBreakRow_of_valid {items next : List QuantityBreak} (h : validateQuantityBreaks items = .ok next) :
    next.map PrismaStore.quantityBreakRow = next := by
  rw [(validateQuantityBreaks_eq_ok h).1, List.map_map]
  refine List.map_congr_left fun item _ => ?_
  unfold Function.comp PrismaStore.quantityBreakRow storedBreak
  cases item.active with
  | none => rfl
  | some active => cases active <;> rfl

/-- The settings the raw statement does not name are those of the row, or of the schema where there is no row. -/
structure UnnamedHeld (config : GovernanceConfig) (row : Option GovernanceConfig) : Prop where
  taxRatePercent : config.taxRatePercent = (row.map (·.taxRatePercent)).getD 0
  staleQuoteDays : config.staleQuoteDays = (row.map (·.staleQuoteDays)).getD 7
  unusualDiscountPercent : config.unusualDiscountPercent = (row.map (·.unusualDiscountPercent)).getD 25
  largeDealNetTotal : config.largeDealNetTotal = (row.map (·.largeDealNetTotal)).getD 50000
  maxCommercialDiscountPercent :
    config.maxCommercialDiscountPercent = (row.map (·.maxCommercialDiscountPercent)).getD 25
  allowLoyaltyStacking : config.allowLoyaltyStacking = (row.map (·.allowLoyaltyStacking)).getD true

theorem rawGovernanceRow_eq_iff (config : GovernanceConfig) (row : Option GovernanceConfig) :
    PrismaStore.rawGovernanceRow config row = config ↔ UnnamedHeld config row := by
  constructor
  · intro h
    rw [← h]
    cases row <;> exact ⟨rfl, rfl, rfl, rfl, rfl, rfl⟩
  · rintro ⟨htax, hstale, hunusual, hlarge, hmost, hstacking⟩
    obtain ⟨_, _, _, _, _, _, _, _, _, _, _⟩ := config
    cases row <;> (dsimp only at htax hstale hunusual hlarge hmost hstacking; subst_vars; rfl)

/-- Settings that were stored read back exactly if the delegate stores them, or the raw statement leaves the
columns it does not name as they should be, or the database refuses the row. -/
theorem replaceGovernance_readsBack_iff {client : PrismaClient} {db : Database GovernanceConfig}
    (hreads : db.reads = true) (hclient : client.Reaches) (config : GovernanceConfig) (row : Option GovernanceConfig) :
    (∀ answer row', PrismaStore.replaceGovernance client db config row = .ok answer row' →
        PrismaStore.getGovernance client db row' = config) ↔
      client.delegates = true ∨ UnnamedHeld config row ∨
        db.takes row.toList (PrismaStore.rawGovernanceRow config row) = false := by
  have hget : ∀ stored, PrismaStore.getGovernance client db (some stored) = stored := by
    intro stored
    have hways : ¬(¬client.delegates = true ∧ ¬client.queryRaw = true) := by
      rintro ⟨hdelegates, hquery⟩
      exact hclient.elim hdelegates fun h => hquery h.1
    unfold PrismaStore.getGovernance
    rw [if_neg (not_not.mpr hreads), if_neg hways]
    rfl
  rw [← rawGovernanceRow_eq_iff]
  cases hdelegates : client.delegates with
  | true =>
      refine iff_of_true (fun answer row' h => ?_) (.inl rfl)
      unfold PrismaStore.replaceGovernance at h
      rw [read_bind, if_pos hdelegates] at h
      simp only [bind_eq_ok, throwIf_eq_ok, write_eq_ok, read_eq_ok] at h
      obtain ⟨_, _, ⟨_, _, -, rfl⟩, -, rfl⟩ := h
      exact hget config
  | false =>
      have hraw : client.executeRaw = true :=
        hclient.elim (fun h => absurd (hdelegates.symm.trans h) Bool.false_ne_true) (·.2)
      have hrun : ∀ answer row', PrismaStore.replaceGovernance client db config row = .ok answer row' ↔
          db.takes row.toList (PrismaStore.rawGovernanceRow config row) = true ∧
            PrismaStore.getGovernance client db row' = answer ∧
              some (PrismaStore.rawGovernanceRow config row) = row' := by
        intro answer row'
        unfold PrismaStore.replaceGovernance
        rw [read_bind, if_neg (Bool.eq_false_iff.mp hdelegates), if_pos hraw]
        simp only [bind_eq_ok, throwIf_eq_ok, write_eq_ok, read_eq_ok, id]
        constructor
        · rintro ⟨_, _, ⟨_, _, ⟨htakes, rfl⟩, rfl⟩, hanswer, rfl⟩
          exact ⟨not_not.mp htakes, hanswer, rfl⟩
        · rintro ⟨htakes, hanswer, rfl⟩
          exact ⟨PUnit.unit, _, ⟨PUnit.unit, _, ⟨not_not.mpr htakes, rfl⟩, rfl⟩, hanswer, rfl⟩
      constructor
      · intro h
        cases htakes : db.takes row.toList (PrismaStore.rawGovernanceRow config row) with
        | false => exact .inr (.inr rfl)
        | true =>
            have hread := h _ _ ((hrun _ _).mpr ⟨htakes, rfl, rfl⟩)
            rw [hget] at hread
            exact .inr (.inl hread)
      · rintro (hdelegate | hsame | hrefused) answer row' h
        · cases hdelegate
        · obtain ⟨-, -, rfl⟩ := (hrun _ _).mp h
          rw [hget, hsame]
        · have htakes := ((hrun _ _).mp h).1
          rw [hrefused] at htakes
          cases htakes

/-- What is read after a successful replace: breaks that passed validation and authorities are those written unless
there are none, and governance settings are those written unless raw SQL drops some. -/
theorem configuration_readsBack_iff {client : PrismaClient} (hclient : client.Reaches)
    {breaksDb : Database QuantityBreak} (hbreaksDb : breaksDb.reads = true)
    {authoritiesDb : Database RoleAuthority} (hauthoritiesDb : authoritiesDb.reads = true)
    {governanceDb : Database GovernanceConfig} (hgovernanceDb : governanceDb.reads = true)
    {items breaks : List QuantityBreak} (hbreaks : validateQuantityBreaks items = .ok breaks)
    (breakRows : List QuantityBreak) (authorities authorityRows : List RoleAuthority)
    (governance : GovernanceConfig) (row : Option GovernanceConfig) :
    ((∀ answer rows', PrismaStore.replaceQuantityBreaks client breaksDb breaks breakRows = .ok answer rows' →
          PrismaStore.listQuantityBreaks client breaksDb rows' = breaks) ↔
        breaks ≠ [] ∨ breaksDb.clears = false) ∧
      ((∀ answer rows', PrismaStore.replaceRoleAuthorities client authoritiesDb authorities authorityRows
            = .ok answer rows' →
          PrismaStore.listRoleAuthorities client authoritiesDb rows' = authorities) ↔
        authorities ≠ [] ∨ authoritiesDb.clears = false) ∧
      ((∀ answer row', PrismaStore.replaceGovernance client governanceDb governance row = .ok answer row' →
          PrismaStore.getGovernance client governanceDb row' = governance) ↔
        client.delegates = true ∨ UnnamedHeld governance row ∨
          governanceDb.takes row.toList (PrismaStore.rawGovernanceRow governance row) = false) := by
  have hbreakRows := @replaceRows_readsBack_iff _ _ _ hbreaksDb hclient defaultQuantityBreaks
    (List.cons_ne_nil _ _) breaks breakRows
  refine ⟨?_, ?_, replaceGovernance_readsBack_iff hgovernanceDb hclient governance row⟩
  · unfold PrismaStore.replaceQuantityBreaks PrismaStore.listQuantityBreaks
    rw [quantityBreakRow_of_valid hbreaks]
    exact hbreakRows
  · exact replaceRows_readsBack_iff hauthoritiesDb hclient (List.cons_ne_nil _ _) authorities authorityRows

/-- A table that takes any row. -/
def plainTable (Row : Type) : Database Row where
  reads := true
  clears := true
  takes _ _ := true

/-- A client whose generated part is older than the tables. -/
def rawClient : PrismaClient where
  delegates := false
  queryRaw := true
  executeRaw := true

/-- Read back through raw SQL: one break and one authority, and settings that keep the columns of the schema. -/
theorem rawClient_readsBack_iff :
    ((∀ answer rows', PrismaStore.replaceQuantityBreaks rawClient (plainTable _) [] [volumeBreak] = .ok answer rows' →
          PrismaStore.listQuantityBreaks rawClient (plainTable _) rows' = []) ↔
        ([] : List QuantityBreak) ≠ [] ∨ (plainTable QuantityBreak).clears = false) ∧
      ((∀ answer rows', PrismaStore.replaceRoleAuthorities rawClient (plainTable _) defaultRoleAuthorities []
            = .ok answer rows' →
          PrismaStore.listRoleAuthorities rawClient (plainTable _) rows' = defaultRoleAuthorities) ↔
        defaultRoleAuthorities ≠ [] ∨ (plainTable RoleAuthority).clears = false) ∧
      ((∀ answer row', PrismaStore.replaceGovernance rawClient (plainTable _) defaultGovernance none = .ok answer row' →
          PrismaStore.getGovernance rawClient (plainTable _) row' = defaultGovernance) ↔
        rawClient.delegates = true ∨ UnnamedHeld defaultGovernance none ∨
          (plainTable GovernanceConfig).takes [] (PrismaStore.rawGovernanceRow defaultGovernance none) = false) :=
  configuration_readsBack_iff (.inr ⟨rfl, rfl⟩) rfl rfl rfl (rfl : validateQuantityBreaks [] = .ok [])
    [volumeBreak] defaultRoleAuthorities []
    defaultGovernance none

def taxedGovernance : GovernanceConfig := { defaultGovernance with taxRatePercent := 8 }

/-- An emptied list of breaks reads as the defaults, and a tax rate stored through raw SQL reads as none. -/
theorem configuration_lost :
    (validateQuantityBreaks [] = .ok [] ∧
      ∃ answer rows', PrismaStore.replaceQuantityBreaks delegateClient (plainTable _) [] [volumeBreak]
          = .ok answer rows' ∧
        PrismaStore.listQuantityBreaks delegateClient (plainTable _) rows' ≠ []) ∧
      ∃ answer row', PrismaStore.replaceGovernance rawClient (plainTable _) taxedGovernance none = .ok answer row' ∧
        PrismaStore.getGovernance rawClient (plainTable _) row' ≠ taxedGovernance := by
  refine ⟨⟨rfl, defaultQuantityBreaks, [], rfl, List.cons_ne_nil _ _⟩, _, _, rfl, fun h => ?_⟩
  have htax := congrArg GovernanceConfig.taxRatePercent h
  exact absurd htax (by decide)

end DealFlow360

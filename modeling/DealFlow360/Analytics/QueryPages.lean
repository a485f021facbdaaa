import DealFlow360.Analytics.AnalyticsService
import DealFlow360.Lib.Program
import DealFlow360.Rounding

/-!
# The pages of an analytics query

A page shows at most `maxSeriesPoints` buckets, but the pages are counted by
the page size: they hold every bucket once exactly if no page has more than
that to show. The buckets partition the facts that a query selects, so counts
and sums add up over the buckets, and what is shown of them adds up where no
value has more than six places.

The parts are independent and are put together at the end:

- the aggregates that add up over a partition (`sum` and `count`), on the exact
  values of the groups;
- rounding to six places changes nothing where every value has at most six, so
  the shown numbers add up too (`sum_shown`);
- the pages of a list, all of them, hold each entry once when no page is cut
  short of its size (`pages_iff_uncapped`).

`query_loses_nothing_iff` is the statement about `AnalyticsService.query`
itself, for every provider state and request; its condition is on the page
size, the number of buckets and the places of the values. The series of 25
hours shows the other side: 24 buckets on its one page.
-/

namespace DealFlow360.Analytics

open Events (Text)
open Program Repositories

/-! ## What adds up -/

def AnalyticsAggregation.Additive (aggregation : AnalyticsAggregation) : Prop :=
  aggregation = .count ∨ aggregation = .sum

theorem exactValue_count (facts : List StoredAnalyticsFact) : exactValue .count facts = facts.length := by
  simp [exactValue, aggregateValues, valuesOf]

theorem exactValue_sum (facts : List StoredAnalyticsFact) : exactValue .sum facts = (facts.map (·.value)).sum := by
  cases facts with
  | nil => rfl
  | cons fact facts => rfl

theorem exactValue_concat {aggregation : AnalyticsAggregation} (h : aggregation.Additive)
    (facts : List StoredAnalyticsFact) (fact : StoredAnalyticsFact) :
    exactValue aggregation (facts ++ [fact]) = exactValue aggregation facts + exactValue aggregation [fact] := by
  rcases h with rfl | rfl
  · simp [exactValue_count]
  · simp [exactValue_sum]

theorem exactValue_nil (aggregation : AnalyticsAggregation) : exactValue aggregation [] = 0 := by
  cases aggregation <;> rfl

theorem roundMetric_of_places {value : Num} (h : Places 6 value) : roundMetric value = value := by
  obtain ⟨n, rfl⟩ := h
  unfold roundMetric
  split
  · rfl
  · have habs : |(n : Num) / 10 ^ 6| * 10 ^ 6 = ((|n| : ℤ) : Num) := by
      rw [abs_div, Int.cast_abs, abs_of_pos (by norm_num : (0 : Num) < 10 ^ 6), div_mul_cancel₀ _ (by norm_num)]
    have hfloor : ⌊|(n : Num) / 10 ^ 6| * 10 ^ 6 + 1 / 2⌋ = |n| := by
      rw [habs, Int.floor_intCast_add, Int.floor_eq_zero_iff.mpr ⟨by norm_num, by norm_num⟩, add_zero]
    dsimp only
    rw [hfloor, Int.cast_abs]
    split
    · rename_i hneg
      have hn : (n : Num) < 0 := (div_lt_iff₀ (by norm_num)).mp hneg |>.trans_eq (zero_mul _)
      rw [abs_of_neg hn, neg_div, neg_neg]
    · rename_i hpos
      have hn : (0 : Num) ≤ n := (zero_mul _).symm.trans_le ((le_div_iff₀ (by norm_num)).mp (not_lt.mp hpos))
      rw [abs_of_nonneg hn]

/-- Values that a metric of the facts shows as they are: counts, and values of at most six places. -/
def Precise (aggregation : AnalyticsAggregation) (facts : List StoredAnalyticsFact) : Prop :=
  aggregation = .count ∨ ∀ fact ∈ facts, Places 6 fact.value

theorem exactValue_places {aggregation : AnalyticsAggregation} (hadditive : aggregation.Additive)
    {facts : List StoredAnalyticsFact} (h : Precise aggregation facts) : Places 6 (exactValue aggregation facts) := by
  rcases hadditive with rfl | rfl
  · rw [exactValue_count]
    refine ⟨facts.length * 10 ^ 6, ?_⟩
    push_cast
    ring
  · rw [exactValue_sum]
    refine places_sum fun x hx => ?_
    obtain ⟨fact, hfact, rfl⟩ := List.mem_map.mp hx
    exact h.resolve_left (by decide) fact hfact

/-! ## Buckets and groups alike -/

/-- A point or a row. -/
structure Entry where
  name : Text
  value : Num
  samples : ℕ
  deriving DecidableEq, Repr

def AnalyticsSeriesPoint.entry (point : AnalyticsSeriesPoint) : Entry where
  name := point.bucket
  value := point.value
  samples := point.samples

def AnalyticsBreakdownRow.entry (row : AnalyticsBreakdownRow) : Entry where
  name := row.key
  value := row.value
  samples := row.samples

def AnalyticsQueryResult.entries (result : AnalyticsQueryResult) : List Entry :=
  (result.points.getD []).map AnalyticsSeriesPoint.entry ++ (result.rows.getD []).map AnalyticsBreakdownRow.entry

namespace AnalyticsService

variable (service : AnalyticsService)

/-- The facts that a request selects. -/
def selected (request : Request) : List StoredAnalyticsFact := service.provider.select request.providerQuery

/-- What the bucket or the group of a fact is called. -/
def nameOf (request : Request) (fact : StoredAnalyticsFact) : Text :=
  match request.kind with
  | .timeseries => (bucketOf request.granularity fact).getD []
  | .breakdown => stringifyDimension service.platform (dimension fact.dimensions request.groupBy)
  | .snapshot => []

/-- The buckets or groups that have facts. -/
def names (request : Request) : List Text := ((service.selected request).map (service.nameOf request)).dedup

/-- The exact value of a bucket or a group. -/
def valueOf (request : Request) (name : Text) : Num :=
  exactValue request.providerQuery.aggregation
    ((service.selected request).filter fun fact => service.nameOf request fact = name)

/-- The exact value of all the facts. -/
def total (request : Request) : Num := exactValue request.providerQuery.aggregation (service.selected request)

/-- All the points or rows that a request is about. -/
def allEntries (request : Request) : Option (List Entry) :=
  match request.kind with
  | .timeseries =>
      (service.provider.points service.platform request.providerQuery request.granularity).map
        (·.map AnalyticsSeriesPoint.entry)
  | .breakdown =>
      some ((service.provider.rows service.platform request.providerQuery request.groupBy).map
        AnalyticsBreakdownRow.entry)
  | .snapshot => some []

variable {service}

/-- The exact values of the buckets add up to that of all the facts. -/
theorem sum_valueOf {request : Request} (h : request.providerQuery.aggregation.Additive) :
    ((service.names request).map (service.valueOf request)).sum = service.total request := by
  have hgroups : ((Grouping.groups (service.nameOf request) (service.selected request)).map fun group =>
      exactValue request.providerQuery.aggregation group.2).sum = service.total request :=
    Grouping.sum_groups (exactValue_nil request.providerQuery.aggregation) (exactValue_concat h)
      (service.selected request)
  have hperm := (@Grouping.groups_perm _ _ _ (service.nameOf request) (service.selected request)).map
    fun group => exactValue request.providerQuery.aggregation group.2
  rw [hperm.sum_eq, List.map_map] at hgroups
  exact hgroups

theorem mapM_map_eq_some {α β : Type*} {f : α → Option β} {l : List α} {l' : List (β × α)}
    (h : (l.mapM fun a => (f a).map fun b => (b, a)) = some l') (default : β) :
    l' = l.map fun a => ((f a).getD default, a) := by
  induction l generalizing l' with
  | nil => exact (Option.some.inj h).symm
  | cons a l ih =>
      rw [List.mapM_cons] at h
      cases ha : f a with
      | none =>
          rw [ha] at h
          cases h
      | some b =>
          cases hl : l.mapM fun a => (f a).map fun b => (b, a) with
          | none =>
              rw [ha, hl] at h
              cases h
          | some rest =>
              rw [ha, hl] at h
              rw [← Option.some.inj h, List.map_cons, ha, ← ih hl]
              rfl

/-- Every bucket or group that has facts is shown, with the value of its facts. -/
theorem allEntries_perm {request : Request} (hkind : request.kind ≠ .snapshot) {entries : List Entry}
    (h : service.allEntries request = some entries) :
    (entries.map fun entry => (entry.name, entry.value)).Perm
      ((service.names request).map fun name => (name, roundMetric (service.valueOf request name))) := by
  unfold allEntries at h
  cases hkind' : request.kind with
  | snapshot => exact absurd hkind' hkind
  | timeseries =>
      rw [hkind'] at h
      obtain ⟨points, hpoints, rfl⟩ := Option.map_eq_some_iff.mp h
      obtain ⟨keyed, hkeyed, hpoints⟩ := Option.bind_eq_some_iff.mp hpoints
      obtain rfl := Option.some.inj hpoints
      have hname : service.nameOf request = fun fact => (bucketOf request.granularity fact).getD [] := by
        unfold nameOf
        rw [hkind']
      have hkeyed' : keyed = (service.selected request).map fun fact => (service.nameOf request fact, fact) := by
        rw [hname]
        exact mapM_map_eq_some hkeyed []
      subst hkeyed'
      rw [List.map_map, List.map_map]
      refine ((sortBy_perm _ _).map _).trans (((Grouping.groups_perm _).map _).trans ?_)
      rw [List.map_map, List.map_map]
      refine List.Perm.of_eq (List.map_congr_left fun name _ => ?_)
      show (name, roundMetric (exactValue _ (List.map Prod.snd (List.filter _ (List.map _ _))))) = _
      rw [List.filter_map, List.map_map]
      unfold valueOf
      congr 3
      exact List.map_id _
  | breakdown =>
      rw [hkind'] at h
      obtain rfl := Option.some.inj h
      have hname : service.nameOf request = fun fact =>
          stringifyDimension service.platform (dimension fact.dimensions request.groupBy) := by
        unfold nameOf
        rw [hkind']
      rw [List.map_map]
      refine ((sortBy_perm _ _).map _).trans ?_
      rw [List.map_map]
      refine ((Grouping.groups_perm _).map _).trans ?_
      rw [List.map_map]
      unfold names valueOf
      rw [hname]
      exact List.Perm.refl _

/-! ## Requests and answers -/

/-- Another page of an admitted query is admitted, and it is the same request. -/
theorem prepare_page {now : ℤ} {input : AnalyticsQueryInput} {request : Request}
    (h : service.prepare now input = .ok request) : ∃ pagination,
      parsePagination { page := input.page, pageSize := input.pageSize } = .ok pagination ∧
      request.kind = input.kind.getD .snapshot ∧
      request.pageParams = pageParams service.runtime.maxSeriesPoints input.take pagination ∧
      ∀ page pagination', parsePagination { page, pageSize := input.pageSize } = .ok pagination' →
        service.prepare now { input with page } =
          .ok { request with pageParams := pageParams service.runtime.maxSeriesPoints input.take pagination' } := by
  unfold prepare at h
  obtain ⟨_, hready, h⟩ := except_bind_eq_ok.mp h
  obtain ⟨kpi, hkpi, h⟩ := except_bind_eq_ok.mp h
  obtain ⟨_, hpermission, h⟩ := except_bind_eq_ok.mp h
  obtain ⟨window, hwindow, h⟩ := except_bind_eq_ok.mp h
  obtain ⟨filters, hfilters, h⟩ := except_bind_eq_ok.mp h
  obtain ⟨pagination, hpagination, h⟩ := except_bind_eq_ok.mp h
  obtain ⟨groupBy, hgroupBy, h⟩ := except_bind_eq_ok.mp h
  obtain rfl := Except.ok.inj h
  have hparsed : parsePagination { page := input.page, pageSize := input.pageSize } = .ok pagination := by
    cases hp : parsePagination { page := input.page, pageSize := input.pageSize } with
    | error error =>
        rw [hp] at hpagination
        cases hpagination
    | ok pagination' =>
        rw [hp] at hpagination
        obtain rfl := Except.ok.inj (by simpa only [Except.mapError] using hpagination)
        rfl
  refine ⟨pagination, hparsed, rfl, rfl, fun page pagination' hpage => ?_⟩
  unfold prepare
  dsimp only
  rw [hready, hpage]
  refine except_bind_eq_ok.mpr ⟨_, rfl, except_bind_eq_ok.mpr ⟨kpi, hkpi, except_bind_eq_ok.mpr ⟨_, hpermission, ?_⟩⟩⟩
  refine except_bind_eq_ok.mpr ⟨window, hwindow, except_bind_eq_ok.mpr ⟨filters, hfilters, ?_⟩⟩
  exact except_bind_eq_ok.mpr ⟨pagination', rfl, except_bind_eq_ok.mpr ⟨groupBy, hgroupBy, rfl⟩⟩

/-- A window does not depend on the granularity that limits it. -/
theorem resolveQueryWindow_unique {now : ℤ} {first last : Option DateTime}
    {granularity granularity' : AnalyticsGranularity}
    {maxRangeDays : ℕ} {window window' : AnalyticsWindow}
    (h : resolveQueryWindow now first last granularity maxRangeDays = .ok window)
    (h' : resolveQueryWindow now first last granularity' maxRangeDays = .ok window') : window = window' := by
  obtain ⟨finish, hfinish, h⟩ := except_bind_eq_ok.mp h
  obtain ⟨since, hsince, h⟩ := except_bind_eq_ok.mp h
  obtain ⟨_, -, h⟩ := except_bind_eq_ok.mp h
  obtain ⟨finish', hfinish', h'⟩ := except_bind_eq_ok.mp h'
  obtain ⟨since', hsince', h'⟩ := except_bind_eq_ok.mp h'
  obtain ⟨_, -, h'⟩ := except_bind_eq_ok.mp h'
  obtain rfl := Except.ok.inj (hfinish.symm.trans hfinish')
  obtain rfl := Except.ok.inj (hsince.symm.trans hsince')
  exact Except.ok.inj (h.symm.trans h')

/-- The snapshot of a query selects the facts that the query selects. -/
theorem prepare_snapshot {now : ℤ} {input : AnalyticsQueryInput} {request snapshot : Request}
    (h : service.prepare now input = .ok request)
    (hsnapshot : service.prepare now { input with kind := some .snapshot } = .ok snapshot) :
    snapshot.kind = .snapshot ∧ snapshot.providerQuery = request.providerQuery := by
  unfold prepare at h hsnapshot
  obtain ⟨_, -, h⟩ := except_bind_eq_ok.mp h
  obtain ⟨kpi, hkpi, h⟩ := except_bind_eq_ok.mp h
  obtain ⟨_, -, h⟩ := except_bind_eq_ok.mp h
  obtain ⟨window, hwindow, h⟩ := except_bind_eq_ok.mp h
  obtain ⟨filters, hfilters, h⟩ := except_bind_eq_ok.mp h
  obtain ⟨_, -, h⟩ := except_bind_eq_ok.mp h
  obtain ⟨_, -, h⟩ := except_bind_eq_ok.mp h
  obtain rfl := Except.ok.inj h
  obtain ⟨_, -, h⟩ := except_bind_eq_ok.mp hsnapshot
  obtain ⟨kpi', hkpi', h⟩ := except_bind_eq_ok.mp h
  obtain ⟨_, -, h⟩ := except_bind_eq_ok.mp h
  obtain ⟨window', hwindow', h⟩ := except_bind_eq_ok.mp h
  obtain ⟨filters', hfilters', h⟩ := except_bind_eq_ok.mp h
  obtain ⟨_, -, h⟩ := except_bind_eq_ok.mp h
  obtain ⟨_, -, h⟩ := except_bind_eq_ok.mp h
  obtain rfl := Except.ok.inj h
  obtain rfl := Except.ok.inj (hkpi.symm.trans hkpi')
  obtain rfl := Except.ok.inj (hfilters.symm.trans hfilters')
  obtain rfl := resolveQueryWindow_unique hwindow hwindow'
  exact ⟨rfl, rfl⟩

/-- An answer to a series or breakdown is a page of all its points or rows, and so is that to any other page. -/
theorem answer_page {request : Request} (hkind : request.kind ≠ .snapshot) {result : AnalyticsQueryResult}
    (h : service.answer request = .ok result) : ∃ entries, service.allEntries request = some entries ∧
      ∀ params, ∃ page, service.answer { request with pageParams := params } = .ok page ∧
        page.entries = (entries.drop params.skip).take params.take ∧
          page.meta = buildPageMeta params entries.length := by
  cases hkind' : request.kind with
  | snapshot => exact absurd hkind' hkind
  | timeseries =>
      unfold answer at h ⊢
      unfold allEntries
      dsimp only at h ⊢
      rw [hkind'] at h ⊢
      dsimp only at h ⊢
      unfold MemoryAnalyticsProvider.timeseries at h ⊢
      cases hpoints : service.provider.points service.platform request.providerQuery request.granularity with
      | none =>
          rw [hpoints] at h
          cases h
      | some points =>
          rw [hpoints] at h
          obtain ⟨start, hstart, h⟩ := except_bind_eq_ok.mp h
          obtain ⟨last, hlast, h⟩ := except_bind_eq_ok.mp h
          refine ⟨_, rfl, fun params => ⟨_, except_bind_eq_ok.mpr ⟨start, hstart, except_bind_eq_ok.mpr
            ⟨last, hlast, rfl⟩⟩, ?_, ?_⟩⟩
          · simp [AnalyticsQueryResult.entries, toPaginatedResult]
          · simp [toPaginatedResult]
  | breakdown =>
      unfold answer at h ⊢
      unfold allEntries
      dsimp only at h ⊢
      rw [hkind'] at h ⊢
      dsimp only at h ⊢
      obtain ⟨start, hstart, h⟩ := except_bind_eq_ok.mp h
      obtain ⟨last, hlast, h⟩ := except_bind_eq_ok.mp h
      refine ⟨_, rfl, fun params => ⟨_, except_bind_eq_ok.mpr ⟨start, hstart, except_bind_eq_ok.mpr
        ⟨last, hlast, rfl⟩⟩, ?_, ?_⟩⟩
      · simp [AnalyticsQueryResult.entries, toPaginatedResult, MemoryAnalyticsProvider.breakdown]
      · simp [toPaginatedResult, MemoryAnalyticsProvider.breakdown]

/-- What a snapshot shows. -/
theorem answer_snapshot {request : Request} (hkind : request.kind = .snapshot) {result : AnalyticsQueryResult}
    (h : service.answer request = .ok result) :
    result.snapshot.map AnalyticsSnapshot.value = some (roundMetric (service.total request)) := by
  unfold answer at h
  rw [hkind] at h
  obtain ⟨_, -, h⟩ := except_bind_eq_ok.mp h
  obtain ⟨_, -, h⟩ := except_bind_eq_ok.mp h
  obtain rfl := Except.ok.inj h
  rfl

/-! ## The pages -/

/-- What the first pages of a query show, one after the other. -/
def pageEntries (service : AnalyticsService) (now : ℤ) (input : AnalyticsQueryInput) (count : ℕ) :
    Except AnalyticsError (List Entry) := do
  let pages ← (List.range count).mapM fun j => service.query now { input with page := some ((j + 1 : ℕ) : Num) }
  return pages.flatMap AnalyticsQueryResult.entries

theorem pageEntries_eq {now : ℤ} {input : AnalyticsQueryInput} {page : ℕ → AnalyticsQueryResult}
    (h : ∀ j, service.query now { input with page := some ((j + 1 : ℕ) : Num) } = .ok (page j)) (count : ℕ) :
    service.pageEntries now input count = .ok ((List.range count).flatMap fun j => (page j).entries) := by
  have hpages : ((List.range count).mapM fun j => service.query now { input with page := some ((j + 1 : ℕ) : Num) }) =
      .ok ((List.range count).map page) := by
    induction List.range count with
    | nil => rfl
    | cons j js ih => rw [List.mapM_cons, h, ih]; rfl
  exact except_bind_eq_ok.mpr ⟨_, hpages, by rw [List.flatMap_map]; rfl⟩

/-- What is shown of precise values adds up to what is shown of all the facts. -/
theorem sum_shown {request : Request} (hkind : request.kind ≠ .snapshot)
    (hadditive : request.providerQuery.aggregation.Additive)
    (hprecise : Precise request.providerQuery.aggregation (service.selected request)) {entries : List Entry}
    (h : service.allEntries request = some entries) :
    (entries.map Entry.value).sum = roundMetric (service.total request) := by
  have hperm := (allEntries_perm hkind h).map Prod.snd
  rw [List.map_map, List.map_map] at hperm
  calc (entries.map Entry.value).sum
      = ((service.names request).map fun name => roundMetric (service.valueOf request name)).sum := hperm.sum_eq
    _ = ((service.names request).map (service.valueOf request)).sum := by
        refine congrArg List.sum (List.map_congr_left fun name _ => roundMetric_of_places ?_)
        exact exactValue_places hadditive (hprecise.imp_right fun h fact hfact => h fact (List.mem_of_mem_filter hfact))
    _ = service.total request := sum_valueOf hadditive
    _ = roundMetric (service.total request) := (roundMetric_of_places (exactValue_places hadditive hprecise)).symm

theorem prepare_of_query {now : ℤ} {input : AnalyticsQueryInput} {result : AnalyticsQueryResult}
    (h : service.query now input = .ok result) :
    ∃ request, service.prepare now input = .ok request ∧ service.answer request = .ok result :=
  except_bind_eq_ok.mp h

/-- Every page shows all that its page size lets it show; with `take` there is one page. -/
def Uncapped (service : AnalyticsService) (input : AnalyticsQueryInput) (request : Request) : Prop :=
  match input.take with
  | none => min request.pageParams.pageSize (service.names request).length ≤ service.runtime.maxSeriesPoints
  | some take => (service.names request).length ≤ min take service.runtime.maxSeriesPoints

theorem nodup_allEntries {request : Request} (hkind : request.kind ≠ .snapshot) {entries : List Entry}
    (h : service.allEntries request = some entries) : entries.Nodup := by
  have hnames := (allEntries_perm hkind h).map Prod.fst
  rw [List.map_map, List.map_map] at hnames
  refine List.Nodup.of_map Entry.name (hnames.nodup_iff.mpr ?_)
  show (List.map id (service.names request)).Nodup
  rw [List.map_id]
  exact List.nodup_dedup _

/-- The pages of a series or breakdown hold all its buckets exactly if no page is cut. -/
theorem pages_iff_uncapped {now : ℤ} {input : AnalyticsQueryInput} {request : Request} {result : AnalyticsQueryResult}
    (hkind : request.kind ≠ .snapshot) (htake : input.take ≠ some 0) (hmax : 0 < service.runtime.maxSeriesPoints)
    (hrequest : service.prepare now input = .ok request) (hanswer : service.answer request = .ok result) :
    ∃ entries shown, service.allEntries request = some entries ∧
      service.pageEntries now input result.meta.totalPages = .ok shown ∧
      (shown = entries ↔ service.Uncapped input request) := by
  obtain ⟨pagination, hpagination, -, hparams, hpages⟩ := prepare_page hrequest
  obtain ⟨entries, hentries, hpage⟩ := answer_page hkind hanswer
  obtain ⟨hsize, hparse⟩ := parsePagination_eq_ok hpagination
  -- another page is the same request with other parameters
  have hquery (j : ℕ) : ∃ page, service.query now { input with page := some ((j + 1 : ℕ) : Num) } = .ok page ∧
      page.entries = (entries.drop (pageParams service.runtime.maxSeriesPoints input.take
        { page := j + 1, pageSize := pagination.pageSize, skip := j * pagination.pageSize
          take := pagination.pageSize }).skip).take request.pageParams.take := by
    obtain ⟨page, hok, hcut, -⟩ := hpage (pageParams service.runtime.maxSeriesPoints input.take
      { page := j + 1, pageSize := pagination.pageSize, skip := (j + 1 - 1) * pagination.pageSize
        take := pagination.pageSize })
    refine ⟨page, except_bind_eq_ok.mpr ⟨_, hpages _ _ (hparse (j + 1) (Nat.succ_pos j)), hok⟩, hcut.trans ?_⟩
    have htakes : pagination.take = pagination.pageSize := parsePagination_take hpagination
    rw [hparams]
    cases input.take with
    | none => rw [← htakes]; rfl
    | some take => rfl
  choose page hok hcut using hquery
  have hmeta : result.meta = buildPageMeta request.pageParams entries.length := by
    obtain ⟨result', hok', -, hmeta⟩ := hpage request.pageParams
    obtain rfl := Except.ok.inj (hanswer.symm.trans hok')
    exact hmeta
  have hcount : entries.length = (service.names request).length := by
    simpa using (allEntries_perm hkind hentries).length_eq
  refine ⟨entries, _, hentries, pageEntries_eq hok _, ?_⟩
  unfold Uncapped
  rw [← hcount]
  rw [hmeta]
  simp only [hcut]
  cases htaken : input.take with
  | none =>
      have hparams' : request.pageParams =
          { pagination with take := min pagination.pageSize service.runtime.maxSeriesPoints } := by
        rw [hparams, htaken]
        simp [pageParams, parsePagination_take hpagination]
      rw [totalPages_eq _ (by rwa [hparams']), hparams']
      dsimp only
      rw [← Paging.pages_take_iff hsize]
      simp only [Paging.page, List.take_take, min_comm]
      rfl
  | some take =>
      have hparams' : request.pageParams = { pagination with
          page := 1, pageSize := min take service.runtime.maxSeriesPoints, skip := 0
          take := min take service.runtime.maxSeriesPoints } := by
        rw [hparams, htaken]
        rfl
      have hpos : 0 < min take service.runtime.maxSeriesPoints := by
        have htake' : take ≠ 0 := fun hzero => htake (htaken.trans (congrArg some hzero))
        omega
      rw [totalPages_eq _ (by rwa [hparams']), hparams']
      exact Paging.first_page_iff hpos (nodup_allEntries hkind hentries)

/-- The pages of a series or breakdown hold all its buckets exactly if the page size, or the number of buckets
where that is less, is no more than `maxSeriesPoints`. The exact counts and sums of the buckets add up; what is
shown of them does for every count, and for a sum of values of at most six places. -/
theorem query_loses_nothing_iff {now : ℤ} {input : AnalyticsQueryInput}
    (hkind : input.kind = some .timeseries ∨ input.kind = some .breakdown) (htake : input.take ≠ some 0)
    (hmax : 0 < service.runtime.maxSeriesPoints) {result : AnalyticsQueryResult}
    (h : service.query now input = .ok result) :
    ∃ request entries shown, service.prepare now input = .ok request ∧ service.allEntries request = some entries ∧
      service.pageEntries now input result.meta.totalPages = .ok shown ∧
      (shown = entries ↔ service.Uncapped input request) ∧
      (request.providerQuery.aggregation.Additive →
        ((service.names request).map (service.valueOf request)).sum = service.total request ∧
        (Precise request.providerQuery.aggregation (service.selected request) →
          ∀ snapshot, service.query now { input with kind := some .snapshot } = .ok snapshot →
            snapshot.snapshot.map AnalyticsSnapshot.value = some (entries.map Entry.value).sum)) := by
  obtain ⟨request, hrequest, hanswer⟩ := prepare_of_query h
  obtain ⟨_, -, hkind', -, -⟩ := prepare_page hrequest
  have hshown : request.kind ≠ .snapshot := by
    rw [hkind']
    rcases hkind with hkind | hkind
    · rw [hkind]
      nofun
    · rw [hkind]
      nofun
  obtain ⟨entries, shown, hentries, hpages, hiff⟩ := pages_iff_uncapped hshown htake hmax hrequest hanswer
  refine ⟨request, entries, shown, hrequest, hentries, hpages, hiff, fun hadditive => ⟨sum_valueOf hadditive, ?_⟩⟩
  intro hprecise snapshot hsnapshot
  obtain ⟨request', hrequest', hanswer'⟩ := prepare_of_query hsnapshot
  obtain ⟨hkindSnapshot, hsame⟩ := prepare_snapshot hrequest hrequest'
  have htotal : service.total request' = service.total request := by
    unfold total selected
    rw [hsame]
  rw [answer_snapshot hkindSnapshot hanswer', htotal, sum_shown hshown hadditive hprecise hentries]

end AnalyticsService

/-! ## A series with more buckets than a page shows -/

def visits (aggregation : AnalyticsAggregation) : AnalyticsKpiDefinition where
  name := "visits"
  aggregation
  permission := "analytics.read"
  dimensions := []

/-- A visit of a quarter of an hour in each of the first hours. -/
def visited (hours : ℕ) : MemoryAnalyticsProvider where
  facts := (List.range hours).map fun hour =>
    { kpiKey := "visits", source := "visits", eventId := "", occurredAt := 3600000 * hour, ownerId := none,
      value := 1 / 4
      dimensions := [] }

def visitsService (aggregation : AnalyticsAggregation) (hours : ℕ) : AnalyticsService where
  runtime := { enabled := true, maxRangeDays := 90, maxSeriesPoints := 24 }
  platform := { localeCompare := fun left right => if left < right then -1 else if right < left then 1 else 0
                numberText := fun value => codeUnits (numText value) }
  kpis := [visits aggregation]
  provider := visited hours

def hourlyVisits : AnalyticsQueryInput where
  kpi := "visits"
  kind := some .timeseries
  granularity := some .hour
  «from» := some (some 0)
  «to» := some (some 172800000)
  pageSize := some 25
  actor := { id := 0, permissions := ["analytics.read"] }

open AnalyticsService in
/-- Two visits are on the page, and take half an hour together. -/
theorem answered_visits : ∃ result snapshot, (visitsService .sum 2).query 0 hourlyVisits = .ok result ∧
    (visitsService .sum 2).query 0 { hourlyVisits with kind := some .snapshot } = .ok snapshot ∧
    ∃ request entries shown, (visitsService .sum 2).prepare 0 hourlyVisits = .ok request ∧
      (visitsService .sum 2).allEntries request = some entries ∧
      (visitsService .sum 2).pageEntries 0 hourlyVisits result.meta.totalPages = .ok shown ∧
      (shown = entries ↔ (visitsService .sum 2).Uncapped hourlyVisits request) ∧
      snapshot.snapshot.map AnalyticsSnapshot.value = some (entries.map Entry.value).sum := by
  have hok : ((visitsService .sum 2).query 0 hourlyVisits).toOption.isSome = true := by decide
  have hsnapshot : ((visitsService .sum 2).query 0
      { hourlyVisits with kind := some .snapshot }).toOption.isSome = true := by decide
  cases h : (visitsService .sum 2).query 0 hourlyVisits with
  | error error =>
      rw [h] at hok
      cases hok
  | ok result =>
      cases hs : (visitsService .sum 2).query 0 { hourlyVisits with kind := some .snapshot } with
      | error error =>
          rw [hs] at hsnapshot
          cases hsnapshot
      | ok snapshot =>
          obtain ⟨request, entries, shown, hrequest, hentries, hshown, hiff, hsums⟩ :=
            query_loses_nothing_iff (.inl rfl) (by decide) (by decide) h
          have hprepared : ((visitsService .sum 2).prepare 0 hourlyVisits).toOption.all fun request =>
              request.providerQuery.aggregation = .sum := by decide
          rw [hrequest] at hprepared
          have hsum : request.providerQuery.aggregation = .sum := of_decide_eq_true hprepared
          have hprecise : Precise request.providerQuery.aggregation ((visitsService .sum 2).selected request) := by
            refine .inr fun fact hfact => ?_
            obtain ⟨hour, -, rfl⟩ := List.mem_map.mp (List.mem_of_mem_filter hfact)
            exact ⟨250000, by norm_num⟩
          exact ⟨result, snapshot, rfl, rfl, request, entries, shown, hrequest, hentries, hshown, hiff,
            (hsums (.inr hsum)).2 hprecise snapshot hs⟩

/-- The series has 25 hours and one page, which shows 24 of them. -/
theorem last_hour_on_no_page :
    ((visitsService .count 25).query 0 hourlyVisits).toOption.map (·.meta.totalPages) = some 1 ∧
      ((visitsService .count 25).pageEntries 0 hourlyVisits 1).toOption.map List.length = some 24 ∧
      ((visitsService .count 25).prepare 0 hourlyVisits).toOption.bind (fun request =>
        ((visitsService .count 25).allEntries request).map List.length) = some 25 := by
  refine ⟨?_, ?_, ?_⟩
  · decide
  · decide
  · decide

end DealFlow360.Analytics

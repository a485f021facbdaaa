import DealFlow360.Lib.Table

/-!
# Claims

Agents take things and finish with them. A thing that is taken belongs to one
agent until that is finished with it or gives it up. As long as only things
that nobody has taken before are taken, nothing is finished twice.

`Held` ties three things together: what has been taken, what has been finished,
and what the agents hold now. It says that a thing finished twice would have
been taken twice. One lemma for each move (`Held.upsert_idle`, `Held.take`,
`Held.finish`, an agent that gives up) is all that a protocol built on claims
needs; agents are the rows of a table, and how a row shows its claim is a
parameter.
-/

namespace Claims

variable {α κ σ : Type*}

/-- What the step of an agent can do: take nothing, take something, finish at once, or finish what it has. -/
inductive Move (taken done : List σ) (claim : Option σ) : List σ → List σ → Option σ → Prop
  | idle : Move taken done claim taken done none
  | takes {x : σ} (hfree : x ∉ taken) : Move taken done claim (taken ++ [x]) done (some x)
  | fires {x : σ} (hfree : x ∉ taken) : Move taken done claim (taken ++ [x]) (done ++ [x]) none
  | finishes {x : σ} (hclaim : claim = some x) : Move taken done claim taken (done ++ [x]) none

variable (key : α → κ) (claim : α → Option σ)

/-- Everything taken is finished once, or belongs to one agent, or was given up. -/
structure Held (taken done : List σ) (agents : List α) : Prop where
  distinct : Table.Distinct key agents
  nodup : done.Nodup
  done_taken : ∀ x ∈ done, x ∈ taken
  open_taken : ∀ agent ∈ agents, ∀ x, claim agent = some x → x ∈ taken ∧ x ∉ done
  alone : ∀ agent ∈ agents, ∀ other ∈ agents, ∀ x, claim agent = some x → claim other = some x →
    key agent = key other

variable {key claim} {taken done taken' done' : List σ} {agents : List α} {agent agent' : α}

theorem nodup_concat {xs : List σ} {x : σ} (h : xs.Nodup) (hnew : x ∉ xs) : (xs ++ [x]).Nodup := by
  rw [List.nodup_append]
  refine ⟨h, List.nodup_singleton x, ?_⟩
  intro a ha b hb
  rw [List.mem_singleton.mp hb]
  exact fun heq => hnew (heq ▸ ha)

theorem held_nil : Held key claim ([] : List σ) [] [] where
  distinct := List.nodup_nil
  nodup := List.nodup_nil
  done_taken _ h := absurd h List.not_mem_nil
  open_taken _ h := absurd h List.not_mem_nil
  alone _ h := absurd h List.not_mem_nil

variable [DecidableEq κ]

/-- An agent without a claim may come or be replaced. -/
theorem Held.upsert_idle (hs : Held key claim taken done agents) (hidle : claim agent' = none) :
    Held key claim taken done (Table.upsert key agent' agents) where
  distinct := Table.distinct_upsert hs.distinct agent'
  nodup := hs.nodup
  done_taken := hs.done_taken
  open_taken other hother x hclaim := by
    rcases Table.mem_upsert hother with rfl | hother
    · rw [hidle] at hclaim
      cases hclaim
    · exact hs.open_taken other hother x hclaim
  alone first hfirst second hsecond x hclaim hclaim' := by
    rcases Table.mem_upsert hfirst with rfl | hfirst
    · rw [hidle] at hclaim
      cases hclaim
    · rcases Table.mem_upsert hsecond with rfl | hsecond
      · rw [hidle] at hclaim'
        cases hclaim'
      · exact hs.alone first hfirst second hsecond x hclaim hclaim'

/-- A thing that nobody has taken before is taken. -/
theorem Held.take (hs : Held key claim taken done agents) {x : σ} (hfree : x ∉ taken) (hclaim : claim agent' = some x) :
    Held key claim (taken ++ [x]) done (Table.upsert key agent' agents) where
  distinct := Table.distinct_upsert hs.distinct agent'
  nodup := hs.nodup
  done_taken y hy := List.mem_append_left _ (hs.done_taken y hy)
  open_taken other hother y hy := by
    rcases Table.mem_upsert hother with rfl | hother
    · cases hclaim.symm.trans hy
      exact ⟨List.mem_append_right _ (List.mem_singleton_self x), fun hdone => hfree (hs.done_taken x hdone)⟩
    · obtain ⟨htaken, hnot⟩ := hs.open_taken other hother y hy
      exact ⟨List.mem_append_left _ htaken, hnot⟩
  alone first hfirst second hsecond y hy hy' := by
    rcases Table.mem_upsert hfirst with hnew | hold
    · rcases Table.mem_upsert hsecond with hnew' | hold'
      · rw [hnew, hnew']
      · rw [hnew] at hy
        cases hclaim.symm.trans hy
        exact absurd (hs.open_taken second hold' x hy').1 hfree
    · rcases Table.mem_upsert hsecond with hnew' | hold'
      · rw [hnew'] at hy'
        cases hclaim.symm.trans hy'
        exact absurd (hs.open_taken first hold x hy).1 hfree
      · exact hs.alone first hold second hold' y hy hy'

/-- What has been taken is finished by the agent it belongs to, or what nobody has claimed is done. -/
theorem Held.finish (hs : Held key claim taken done agents) {x : σ} (htaken : x ∈ taken) (hnot : x ∉ done)
    (hothers : ∀ other ∈ agents, claim other = some x → key other = key agent') (hidle : claim agent' = none) :
    Held key claim taken (done ++ [x]) (Table.upsert key agent' agents) where
  distinct := Table.distinct_upsert hs.distinct agent'
  nodup := nodup_concat hs.nodup hnot
  done_taken y hy := by
    rcases List.mem_append.mp hy with hy | hy
    · exact hs.done_taken y hy
    · rwa [List.mem_singleton.mp hy]
  open_taken other hother y hy := by
    rcases (Table.mem_upsert_iff hs.distinct).mp hother with rfl | ⟨hother, hne⟩
    · rw [hidle] at hy
      cases hy
    · obtain ⟨htaken', hnot'⟩ := hs.open_taken other hother y hy
      refine ⟨htaken', fun hdone => ?_⟩
      rcases List.mem_append.mp hdone with hdone | hdone
      · exact hnot' hdone
      · cases List.mem_singleton.mp hdone
        exact hne (hothers other hother hy)
  alone := (hs.upsert_idle hidle).alone

theorem Held.move (hs : Held key claim taken done agents) (hmem : agent ∈ agents) (hkey : key agent' = key agent)
    (hmove : Move taken done (claim agent) taken' done' (claim agent')) :
    Held key claim taken' done' (Table.upsert key agent' agents) := by
  generalize hbefore : claim agent = before at hmove
  generalize hafter : claim agent' = after at hmove
  cases hmove with
  | idle => exact hs.upsert_idle hafter
  | takes hfree => exact hs.take hfree hafter
  | @fires x hfree =>
      have hunclaimed : ∀ other ∈ agents, claim other = some x → key other = key agent' :=
        fun other hother hclaim => absurd (hs.open_taken other hother x hclaim).1 hfree
      have hwider : Held key claim (taken ++ [x]) done agents :=
        ⟨hs.distinct, hs.nodup, fun y hy => List.mem_append_left _ (hs.done_taken y hy),
          fun other hother y hy =>
            ⟨List.mem_append_left _ (hs.open_taken other hother y hy).1, (hs.open_taken other hother y hy).2⟩,
          hs.alone⟩
      exact hwider.finish (List.mem_append_right _ (List.mem_singleton_self x))
        (fun hdone => hfree (hs.done_taken x hdone)) hunclaimed hafter
  | @finishes x hclaim =>
      obtain ⟨htaken, hnot⟩ := hs.open_taken agent hmem x (hbefore.trans hclaim)
      refine hs.finish htaken hnot (fun other hother hother' => ?_) hafter
      rw [hkey]
      exact hs.alone other hother agent hmem x hother' (hbefore.trans hclaim)

end Claims

import DealFlow360.Lib.Machine
import DealFlow360.Notifications.NotificationService

/-!
# Retries of a notification

An attempt of the dispatch job never takes up a delivery of an attempt before:
with a key the stored delivery is answered as a duplicate, whatever its status,
and without one the channels start over. So a failed send is never made up for,
and the job completes both channels only where it needs no second attempt.

What one attempt does depends on the deliveries it finds and on what goes
wrong: `attempted_ok_iff` for when it returns, `attempted_sends` for what it
asks to be sent, `attempted_retry` for what it leaves when it fails. A delivery
that was left is never sent again (`resent_iff`), and a blocked job never
returns (`run_blocked`).

`dispatch_completes_iff` is exact for every store and every list of attempts:
both channels are completed if and only if no attempt has to make up for one
before it and the first one skips no channel that was asked for.
-/

namespace DealFlow360.Notifications

namespace NotificationStore

variable (s : NotificationStore) (ready : Channel → Bool) (input : SendNotificationInput) (outcome : SendOutcome)

/-! ## What a send meets -/

/-- The delivery's key is taken. -/
def Taken : Prop := (input.idempotencyKey.bind s.findDeliveryByIdempotencyKey).isSome

/-- The user has turned the category off on the channel. -/
def Disabled : Prop :=
  (input.recipient.userId.any fun userId => !s.isCategoryEnabled userId input.category input.channel) = true

/-- Nothing is sent on the channel. -/
def Skips : Prop := s.Taken input ∨ s.Disabled input

/-- The key and the user are accepted. -/
def Accepts : Prop :=
  validKey input.idempotencyKey = true ∧ (s.resolveRecipient input.channel input.recipient).isSome

/-- The user has an address on the channel, which is configured. -/
def Reaches : Prop :=
  ready input.channel = true ∧
    ((s.resolveRecipient input.channel input.recipient).any fun recipient => recipient.suits input.channel) = true

/-- Nothing goes wrong on the channel. -/
def Passes : Prop :=
  s.Accepts input ∧ (s.Skips input ∨ s.Reaches ready input ∧ outcome = .sent)

instance : Decidable (s.Skips input) :=
  inferInstanceAs (Decidable (_ = true ∨ _ = true))

instance : Decidable (s.Passes ready input outcome) :=
  inferInstanceAs (Decidable ((_ = true ∧ _ = true) ∧ (s.Skips input ∨ (_ = true ∧ _ = true) ∧ outcome = .sent)))

/-- The store once the channel has been asked to send a new delivery. -/
def tried (channel : Channel) (outcome : SendOutcome) (delivery : NotificationDelivery) : NotificationStore :=
  { s with
    deliveries := s.deliveries ++ [delivery]
    sends := s.sends ++ [{ deliveryId := s.deliveries.length, channel, outcome }] }

/-- What `sendNotification` can do. -/
inductive Handled : NotificationStore × Except NotificationError SendNotificationResult → Prop
  | refused {error : NotificationError} (hpasses : ¬ s.Passes ready input outcome)
      (hretry : error.isRetryable = true → ¬ s.Skips input ∧ ready input.channel = false) :
      Handled (s, .error error)
  | skipped {result : SendNotificationResult} {added : List NotificationDelivery}
      (hpasses : s.Passes ready input outcome) (hskips : s.Skips input)
      (hadded : ∀ delivery ∈ added, delivery.idempotencyKey = input.idempotencyKey) :
      Handled ({ s with deliveries := s.deliveries ++ added }, .ok result)
  | delivered {result : SendNotificationResult} {delivery : NotificationDelivery}
      (hpasses : s.Passes ready input outcome) (hskips : ¬ s.Skips input) (hsent : outcome = .sent)
      (hkey : delivery.idempotencyKey = input.idempotencyKey) :
      Handled (s.tried input.channel outcome delivery, .ok result)
  | failed {error : NotificationError} {delivery : NotificationDelivery}
      (hpasses : ¬ s.Passes ready input outcome) (hskips : ¬ s.Skips input) (hready : ready input.channel = true)
      (hfailed : outcome ≠ .sent) (hkey : delivery.idempotencyKey = input.idempotencyKey)
      (hleft : delivery.status = .retrying ∨ delivery.status = .failed) :
      Handled (s.tried input.channel outcome delivery, .error error)

end NotificationStore

section Sends

variable {s s' : NotificationStore} {ready : Channel → Bool} {input : SendNotificationInput} {outcome : SendOutcome}

theorem taken_iff : s.Taken input ↔
    ∃ key, input.idempotencyKey = some key ∧ ∃ delivery ∈ s.deliveries, delivery.idempotencyKey = some key := by
  unfold NotificationStore.Taken NotificationStore.findDeliveryByIdempotencyKey
  cases input.idempotencyKey with
  | none => exact iff_of_false nofun nofun
  | some key =>
      rw [Option.bind_some, List.findIdx?_isSome, List.any_eq_true]
      constructor
      · rintro ⟨delivery, hdelivery, hkey⟩
        exact ⟨key, rfl, delivery, hdelivery, of_decide_eq_true hkey⟩
      · rintro ⟨found, hfound, delivery, hdelivery, hkey⟩
        exact ⟨delivery, hdelivery, decide_eq_true (hkey.trans hfound.symm)⟩

theorem createDelivery_of_not_taken (hfree : ¬ s.Taken input) {delivery : NotificationDelivery}
    (hkey : delivery.idempotencyKey = input.idempotencyKey) :
    s.createDelivery delivery = some ({ s with deliveries := s.deliveries ++ [delivery] }, s.deliveries.length) := by
  unfold NotificationStore.createDelivery
  rw [hkey]
  exact if_neg hfree

theorem modify_concat (deliveries : List NotificationDelivery) (delivery : NotificationDelivery)
    (change : NotificationDelivery → NotificationDelivery) :
    (deliveries ++ [delivery]).modify deliveries.length change = deliveries ++ [change delivery] := by
  induction deliveries with
  | nil => rfl
  | cons first rest ih =>
      show first :: (rest ++ [delivery]).modify rest.length change = _
      rw [ih]
      rfl

/-- A delivery just created is sent on its channel. -/
theorem deliverById_created (s : NotificationStore) (outcome : SendOutcome) (delivery : NotificationDelivery)
    (hqueued : delivery.status ≠ .sent) :
    ∃ after, after.idempotencyKey = delivery.idempotencyKey ∧
      ((outcome = .sent ∧
          ({ s with deliveries := s.deliveries ++ [delivery] } : NotificationStore).deliverById s.deliveries.length
            outcome = (s.tried delivery.channel outcome after, .ok s.deliveries.length)) ∨
        (outcome ≠ .sent ∧ (after.status = .retrying ∨ after.status = .failed) ∧ ∃ error,
          ({ s with deliveries := s.deliveries ++ [delivery] } : NotificationStore).deliverById s.deliveries.length
            outcome = (s.tried delivery.channel outcome after, .error error))) := by
  unfold NotificationStore.deliverById
  rw [List.getElem?_concat_length]
  dsimp only
  rw [if_neg hqueued]
  cases outcome with
  | sent =>
      refine ⟨{ delivery with status := .sent, attempt := delivery.attempt + 1 }, rfl, .inl ⟨rfl, ?_⟩⟩
      unfold NotificationStore.updateDelivery NotificationStore.tried
      dsimp only
      rw [modify_concat, modify_concat]
  | failed retryable =>
      let again := retryable && decide (delivery.attempt + 1 < delivery.maxAttempts)
      refine ⟨{ delivery with
        status := if again then .retrying else .failed
        attempt := delivery.attempt + 1 }, rfl, .inr ⟨nofun, ?_, if again then .channel else .unretryable, ?_⟩⟩
      · cases again with
        | true => exact .inl rfl
        | false => exact .inr rfl
      · unfold NotificationStore.updateDelivery NotificationStore.tried
        dsimp only
        rw [modify_concat, modify_concat]

theorem userId_of_resolved {channel : Channel} {recipient resolved : Recipient}
    (h : s.resolveRecipient channel recipient = some resolved) : resolved.userId = recipient.userId := by
  unfold NotificationStore.resolveRecipient at h
  split at h
  · cases h
    rfl
  · obtain ⟨user, -, rfl⟩ := Option.map_eq_some_iff.mp h
    rfl

/-- Nothing is stored for a channel that is skipped. -/
theorem handled_skip (hpasses : s.Passes ready input outcome) (hskips : s.Skips input)
    (result : SendNotificationResult) : s.Handled ready input outcome (s, .ok result) := by
  have h : s.Handled ready input outcome ({ s with deliveries := s.deliveries ++ [] }, .ok result) :=
    .skipped hpasses hskips fun _ hdelivery => absurd hdelivery List.not_mem_nil
  rwa [List.append_nil] at h

theorem skippedPreference_handled {recipient : Recipient} (haccepts : s.Accepts input) (hfree : ¬ s.Taken input)
    (hdisabled : s.Disabled input) : s.Handled ready input outcome (s.skippedPreference input recipient) := by
  have hpasses : s.Passes ready input outcome := ⟨haccepts, .inl (.inr hdisabled)⟩
  unfold NotificationStore.skippedPreference
  cases hkey : input.idempotencyKey with
  | none =>
      exact handled_skip hpasses (.inr hdisabled) _
  | some key =>
      have hnone : s.findDeliveryByIdempotencyKey key = none := by
        unfold NotificationStore.Taken at hfree
        rw [hkey] at hfree
        exact Option.not_isSome_iff_eq_none.mp hfree
      dsimp only
      rw [hnone]
      dsimp only
      rw [createDelivery_of_not_taken hfree hkey.symm]
      refine .skipped hpasses (.inr hdisabled) fun delivery hdelivery => ?_
      rw [List.mem_singleton.mp hdelivery, hkey]

theorem sendNotification_handled (s : NotificationStore) (ready : Channel → Bool) (input : SendNotificationInput)
    (outcome : SendOutcome) : s.Handled ready input outcome (s.sendNotification ready input outcome) := by
  unfold NotificationStore.sendNotification
  by_cases hkey : validKey input.idempotencyKey = false
  · rw [if_pos hkey]
    exact .refused (fun h => absurd (h.1.1.symm.trans hkey) nofun) nofun
  rw [if_neg hkey]
  have hvalid : validKey input.idempotencyKey = true := Bool.eq_true_of_not_eq_false hkey
  cases hrecipient : s.resolveRecipient input.channel input.recipient with
  | none =>
      refine .refused (fun h => ?_) nofun
      have hsome := h.1.2
      rw [hrecipient] at hsome
      cases hsome
  | some recipient =>
      have haccepts : s.Accepts input := ⟨hvalid, by rw [hrecipient]; rfl⟩
      have huser := userId_of_resolved hrecipient
      dsimp only
      by_cases htaken : s.Taken input
      · obtain ⟨existing, hexisting⟩ := Option.isSome_iff_exists.mp htaken
        rw [hexisting]
        exact handled_skip ⟨haccepts, .inl (.inl htaken)⟩ (.inl htaken) _
      have hnone := Option.not_isSome_iff_eq_none.mp htaken
      rw [hnone]
      dsimp only
      rw [huser]
      by_cases hdisabled : s.Disabled input
      · have hoff := hdisabled
        unfold NotificationStore.Disabled at hoff
        rw [if_pos hoff]
        exact skippedPreference_handled haccepts htaken hdisabled
      have hon := hdisabled
      unfold NotificationStore.Disabled at hon
      rw [if_neg hon]
      have hskips : ¬ s.Skips input := fun h => h.elim htaken hdisabled
      by_cases hsuits : recipient.suits input.channel = false
      · rw [if_pos hsuits]
        refine .refused (fun h => ?_) nofun
        rcases h.2 with h | ⟨⟨-, h⟩, -⟩
        · exact hskips h
        · rw [hrecipient] at h
          exact absurd (h.symm.trans hsuits) nofun
      rw [if_neg hsuits]
      by_cases hready : ready input.channel = false
      · rw [if_pos hready]
        refine .refused (fun h => ?_) fun _ => ⟨hskips, hready⟩
        rcases h.2 with h | ⟨⟨h, -⟩, -⟩
        · exact hskips h
        · exact absurd (h.symm.trans hready) nofun
      rw [if_neg hready]
      have hreaches : s.Reaches ready input :=
        ⟨Bool.eq_true_of_not_eq_false hready, by rw [hrecipient]; exact Bool.eq_true_of_not_eq_false hsuits⟩
      rw [createDelivery_of_not_taken htaken rfl]
      dsimp only
      obtain ⟨after, hafter, ⟨hsent, hresult⟩ | ⟨hfailed, hleft, error, hresult⟩⟩ :=
        deliverById_created s outcome
          { channel := input.channel, status := .queued, priority := input.priority, category := input.category,
            recipient, idempotencyKey := input.idempotencyKey,
            maxAttempts := attemptsForPriority input.priority } nofun
      · rw [hresult]
        exact .delivered ⟨haccepts, .inr ⟨hreaches, hsent⟩⟩ hskips hsent hafter
      · rw [hresult]
        refine .failed (fun h => ?_) hskips hreaches.1 hfailed hafter hleft
        rcases h.2 with h | ⟨-, h⟩
        · exact hskips h
        · exact hfailed h

/-- A send adds deliveries under its own key and asks its channel for new ones only. -/
structure Extends (s s' : NotificationStore) (key : Option String) : Prop where
  users : s'.users = s.users
  preferences : s'.preferences = s.preferences
  deliveries : ∃ added, s'.deliveries = s.deliveries ++ added ∧
    ∀ delivery ∈ added, delivery.idempotencyKey = key
  sends : ∃ tried, s'.sends = s.sends ++ tried ∧ ∀ send ∈ tried, s.deliveries.length ≤ send.deliveryId

theorem extends_tried (s : NotificationStore) (channel : Channel) (outcome : SendOutcome)
    (delivery : NotificationDelivery) : Extends s (s.tried channel outcome delivery) delivery.idempotencyKey where
  users := rfl
  preferences := rfl
  deliveries := ⟨[delivery], rfl, fun _ h => by rw [List.mem_singleton.mp h]⟩
  sends := ⟨_, rfl, fun _ h => by rw [List.mem_singleton.mp h]⟩

theorem extends_of_handled {result : NotificationStore × Except NotificationError SendNotificationResult}
    (h : s.Handled ready input outcome result) : Extends s result.1 input.idempotencyKey := by
  have hnone : ∃ tried, s.sends = s.sends ++ tried ∧ ∀ send ∈ tried, s.deliveries.length ≤ send.deliveryId :=
    ⟨[], (List.append_nil _).symm, fun _ h => absurd h List.not_mem_nil⟩
  cases h with
  | refused hpasses hretry =>
      exact ⟨rfl, rfl, ⟨[], (List.append_nil _).symm, fun _ h => absurd h List.not_mem_nil⟩, hnone⟩
  | skipped hpasses hskips hadded => exact ⟨rfl, rfl, ⟨_, rfl, hadded⟩, hnone⟩
  | delivered hpasses hskips hsent hkey => exact hkey ▸ extends_tried s _ _ _
  | failed hpasses hskips hready hfailed hkey hleft => exact hkey ▸ extends_tried s _ _ _

/-- What stands under one key says nothing of a send under another. -/
theorem skips_of_extends {key : Option String} (h : Extends s s' key)
    (hkey : ∀ text, input.idempotencyKey = some text → key ≠ some text) : s'.Skips input ↔ s.Skips input := by
  obtain ⟨added, hdeliveries, hadded⟩ := h.deliveries
  have htaken : s'.Taken input ↔ s.Taken input := by
    rw [taken_iff, taken_iff]
    refine exists_congr fun text => and_congr_right fun htext => ?_
    rw [hdeliveries]
    constructor
    · rintro ⟨delivery, hdelivery, hown⟩
      rcases List.mem_append.mp hdelivery with hdelivery | hdelivery
      · exact ⟨delivery, hdelivery, hown⟩
      · exact absurd ((hadded delivery hdelivery).symm.trans hown) (hkey text htext)
    · rintro ⟨delivery, hdelivery, hown⟩
      exact ⟨delivery, List.mem_append_left added hdelivery, hown⟩
  have hdisabled : s'.Disabled input ↔ s.Disabled input := by
    unfold NotificationStore.Disabled NotificationStore.isCategoryEnabled NotificationStore.findPreference
    rw [h.preferences]
  exact or_congr htaken hdisabled

theorem passes_of_extends {key : Option String} (h : Extends s s' key)
    (hkey : ∀ text, input.idempotencyKey = some text → key ≠ some text) :
    s'.Passes ready input outcome ↔ s.Passes ready input outcome := by
  have hresolve : s'.resolveRecipient input.channel input.recipient =
      s.resolveRecipient input.channel input.recipient := by
    unfold NotificationStore.resolveRecipient NotificationStore.findUser
    rw [h.users]
  unfold NotificationStore.Passes NotificationStore.Accepts NotificationStore.Reaches
  rw [hresolve, skips_of_extends h hkey]

end Sends

/-! ## Attempts -/

namespace NotificationStore

variable (s : NotificationStore)

/-- How often the channel has sent. -/
def sentOn (channel : Channel) : ℕ :=
  s.sends.countP fun send => send.channel = channel && send.outcome = .sent

/-- One in-app notification and one email have been sent. -/
def SentOnce : Prop := s.sentOn .inApp = 1 ∧ s.sentOn .email = 1

/-- A delivery from the id on that was not sent. -/
def Left (first id : Id) : Prop :=
  first ≤ id ∧ ∃ delivery ∈ s.deliveries[id]?, delivery.status = .retrying ∨ delivery.status = .failed

/-- What an attempt does on the two channels. -/
inductive Attempted (ready : Channel → Bool) (request : NotifyRequest) (outcome : Channel → SendOutcome) :
    NotificationStore × Except NotificationError SendNotificationResult → Prop
  | inApp {s₁ : NotificationStore} {error : NotificationError}
      (hinApp : s.Handled ready (request.input .inApp) (outcome .inApp) (s₁, .error error)) :
      Attempted ready request outcome (s₁, .error error)
  | email {s₁ s₂ : NotificationStore} {result : SendNotificationResult} {error : NotificationError}
      (hinApp : s.Handled ready (request.input .inApp) (outcome .inApp) (s₁, .ok result))
      (hemail : s₁.Handled ready (request.input .email) (outcome .email) (s₂, .error error)) :
      Attempted ready request outcome (s₂, .error error)
  | done {s₁ s₂ : NotificationStore} {result sent : SendNotificationResult}
      (hinApp : s.Handled ready (request.input .inApp) (outcome .inApp) (s₁, .ok result))
      (hemail : s₁.Handled ready (request.input .email) (outcome .email) (s₂, .ok sent)) :
      Attempted ready request outcome (s₂, .ok result)

end NotificationStore

section Attempts

variable {s s' : NotificationStore} {ready : Channel → Bool} {request : NotifyRequest}
  {outcome : Channel → SendOutcome}

theorem deliverLegacy_attempted (hemail : request.email = true) (s : NotificationStore) (ready : Channel → Bool)
    (outcome : Channel → SendOutcome) :
    s.Attempted ready request outcome (s.deliverLegacy ready request outcome) := by
  unfold NotificationStore.deliverLegacy
  have hinApp := sendNotification_handled s ready (request.input .inApp) (outcome .inApp)
  generalize s.sendNotification ready (request.input .inApp) (outcome .inApp) = first at hinApp ⊢
  obtain ⟨s₁, error | result⟩ := first
  · exact .inApp hinApp
  dsimp only
  rw [if_pos hemail]
  have hsecond := sendNotification_handled s₁ ready (request.input .email) (outcome .email)
  generalize s₁.sendNotification ready (request.input .email) (outcome .email) = second at hsecond ⊢
  obtain ⟨s₂, error | sent⟩ := second
  · exact .email hinApp hsecond
  · exact .done hinApp hsecond

/-- The email's key is not that of the in-app notification. -/
theorem key_ne (request : NotifyRequest) (text : String) (h : (request.input .email).idempotencyKey = some text) :
    (request.input .inApp).idempotencyKey ≠ some text := by
  intro hinApp
  have hkey : request.idempotencyKey = some text := hinApp
  have hsuffix : request.idempotencyKey.map (· ++ ":email") = some text := h
  rw [hkey] at hsuffix
  have hlength := congrArg String.length (Option.some.inj hsuffix)
  rw [String.length_append] at hlength
  exact absurd hlength (by show text.length + 6 ≠ text.length; omega)

theorem sentOn_of_handled {input : SendNotificationInput} {came : SendOutcome} {result : SendNotificationResult}
    (h : s.Handled ready input came (s', .ok result)) (channel : Channel) :
    s'.sentOn channel = s.sentOn channel + if channel = input.channel ∧ ¬ s.Skips input then 1 else 0 := by
  cases h with
  | skipped hpasses hskips hadded =>
      rw [if_neg fun h => h.2 hskips]
      rfl
  | delivered hpasses hskips hsent hkey =>
      unfold NotificationStore.sentOn NotificationStore.tried
      rw [List.countP_append, List.countP_singleton, hsent]
      by_cases hchannel : channel = input.channel
      · simp [hchannel, hskips]
      · simp [hchannel, Ne.symm hchannel]

/-- The second send of an attempt meets what it would have met first. -/
theorem email_after_inApp {result : NotificationStore × Except NotificationError SendNotificationResult}
    {came : SendOutcome} (h : s.Handled ready (request.input .inApp) came result) :
    (result.1.Skips (request.input .email) ↔ s.Skips (request.input .email)) ∧
      (result.1.Passes ready (request.input .email) (outcome .email) ↔
        s.Passes ready (request.input .email) (outcome .email)) :=
  ⟨skips_of_extends (extends_of_handled h) (key_ne request),
    passes_of_extends (extends_of_handled h) (key_ne request)⟩

theorem passes_of_ok {input : SendNotificationInput} {came : SendOutcome} {result : SendNotificationResult}
    (h : s.Handled ready input came (s', .ok result)) : s.Passes ready input came := by
  cases h with
  | skipped hpasses hskips hadded => exact hpasses
  | delivered hpasses hskips hsent hkey => exact hpasses

theorem not_passes_of_error {input : SendNotificationInput} {came : SendOutcome} {error : NotificationError}
    (h : s.Handled ready input came (s', .error error)) : ¬ s.Passes ready input came := by
  cases h with
  | refused hpasses hretry => exact hpasses
  | failed hpasses hskips hready hfailed hkey hleft => exact hpasses

/-- An attempt returns exactly if nothing goes wrong on either channel. -/
theorem attempted_ok_iff {result : NotificationStore × Except NotificationError SendNotificationResult}
    (h : s.Attempted ready request outcome result) : (∃ answer, result.2 = .ok answer) ↔
      s.Passes ready (request.input .inApp) (outcome .inApp) ∧
        s.Passes ready (request.input .email) (outcome .email) := by
  cases h with
  | inApp hinApp => exact iff_of_false nofun fun h => not_passes_of_error hinApp h.1
  | email hinApp hemail =>
      exact iff_of_false nofun fun h =>
        not_passes_of_error hemail ((email_after_inApp hinApp).2.mpr h.2)
  | done hinApp hemail =>
      exact iff_of_true ⟨_, rfl⟩ ⟨passes_of_ok hinApp, (email_after_inApp hinApp).2.mp (passes_of_ok hemail)⟩

/-- An attempt that returns has sent once on each channel that is not skipped. -/
theorem sentOn_attempted {answer : SendNotificationResult}
    (h : s.Attempted ready request outcome (s', .ok answer)) :
    s'.sentOn .inApp = s.sentOn .inApp + (if s.Skips (request.input .inApp) then 0 else 1) ∧
      s'.sentOn .email = s.sentOn .email + (if s.Skips (request.input .email) then 0 else 1) := by
  cases h with
  | done hinApp hemail =>
      have hskips := (@email_after_inApp _ _ _ outcome _ _ hinApp).1
      have hfirst := sentOn_of_handled hinApp .inApp
      have hsame := sentOn_of_handled hinApp .email
      have hsecond := sentOn_of_handled hemail .email
      have hkept := sentOn_of_handled hemail .inApp
      rw [if_neg (fun h => by cases h.1)] at hsame hkept
      constructor
      · rw [hkept, Nat.add_zero, hfirst]
        by_cases h : s.Skips (request.input .inApp)
        · rw [if_pos h, if_neg fun h' => h'.2 h]
        · rw [if_neg h, if_pos ⟨rfl, h⟩]
      · rw [hsecond, hsame, Nat.add_zero]
        by_cases h : s.Skips (request.input .email)
        · rw [if_pos h, if_neg fun h' => h'.2 (hskips.mpr h)]
        · rw [if_neg h, if_pos ⟨rfl, fun h' => h (hskips.mp h')⟩]

/-- An attempt asks for new deliveries only. -/
theorem attempted_sends {result : NotificationStore × Except NotificationError SendNotificationResult}
    (h : s.Attempted ready request outcome result) :
    ∃ tried, result.1.sends = s.sends ++ tried ∧ ∀ send ∈ tried, s.deliveries.length ≤ send.deliveryId := by
  have htwo {s₁ s₂ : NotificationStore} {key key' : Option String} (hfirst : Extends s s₁ key)
      (hsecond : Extends s₁ s₂ key') :
      ∃ tried, s₂.sends = s.sends ++ tried ∧ ∀ send ∈ tried, s.deliveries.length ≤ send.deliveryId := by
    obtain ⟨added, hadded, -⟩ := hfirst.deliveries
    obtain ⟨tried, htried, hnew⟩ := hfirst.sends
    obtain ⟨tried', htried', hnew'⟩ := hsecond.sends
    refine ⟨tried ++ tried', by rw [htried', htried, List.append_assoc], fun send hsend => ?_⟩
    rcases List.mem_append.mp hsend with hsend | hsend
    · exact hnew send hsend
    · have hlength : s.deliveries.length ≤ s₁.deliveries.length := by
        rw [hadded, List.length_append]
        exact Nat.le_add_right _ _
      exact hlength.trans (hnew' send hsend)
  cases h with
  | inApp hinApp => exact (extends_of_handled hinApp).sends
  | email hinApp hemail =>
      have hsecond := extends_of_handled hemail
      exact htwo (extends_of_handled hinApp) hsecond
  | done hinApp hemail =>
      have hsecond := extends_of_handled hemail
      exact htwo (extends_of_handled hinApp) hsecond

/-- The email is not skipped, but its channel is not configured. -/
def Blocked (s : NotificationStore) (ready : Channel → Bool) (request : NotifyRequest) : Prop :=
  ¬ s.Skips (request.input .email) ∧ ready .email = false

/-- An attempt that fails with a retryable error leaves a delivery, or finds the email blocked. -/
theorem attempted_retry {error : NotificationError} (hready : ready .inApp = true)
    (h : s.Attempted ready request outcome (s', .error error)) (hretry : error.isRetryable = true) :
    (∃ id, s'.Left s.deliveries.length id) ∨ Blocked s' ready request := by
  have hleft {before : NotificationStore} {channel : Channel} {came : SendOutcome} {delivery : NotificationDelivery}
      (hlength : s.deliveries.length ≤ before.deliveries.length)
      (hstatus : delivery.status = .retrying ∨ delivery.status = .failed) :
      ∃ id, (before.tried channel came delivery).Left s.deliveries.length id :=
    ⟨before.deliveries.length, hlength, delivery, List.getElem?_concat_length, hstatus⟩
  cases h with
  | inApp hinApp =>
      cases hinApp with
      | refused hpasses hskip => exact absurd ((hskip hretry).2.symm.trans hready) nofun
      | failed hpasses hskips hchannel hfailed hkey hstatus => exact .inl (hleft le_rfl hstatus)
  | email hinApp hemail =>
      cases hemail with
      | refused hpasses hskip => exact .inr (hskip hretry)
      | failed hpasses hskips hchannel hfailed hkey hstatus =>
          obtain ⟨added, hadded, -⟩ := (extends_of_handled hinApp).deliveries
          refine .inl (hleft ?_ hstatus)
          have hlength := congrArg List.length hadded
          rw [List.length_append] at hlength
          exact hlength ▸ Nat.le_add_right _ _

theorem attempted_blocked {result : NotificationStore × Except NotificationError SendNotificationResult}
    (h : s.Attempted ready request outcome result) (hblocked : Blocked s ready request) :
    (∀ answer, result.2 ≠ .ok answer) ∧ Blocked result.1 ready request := by
  have hsend {before after : NotificationStore} {came : SendOutcome}
      {answer : Except NotificationError SendNotificationResult}
      (hemail : before.Handled ready (request.input .email) came (after, answer))
      (hbefore : Blocked before ready request) : (∀ sent, answer ≠ .ok sent) ∧ after = before := by
    cases hemail with
    | refused hpasses hretry => exact ⟨nofun, rfl⟩
    | skipped hpasses hskips hadded => exact absurd hskips hbefore.1
    | delivered hpasses hskips hsent hkey =>
        rcases hpasses.2 with hskip | ⟨hreaches, -⟩
        · exact absurd hskip hbefore.1
        · exact absurd (hreaches.1.symm.trans hbefore.2) nofun
    | failed hpasses hskips hready hfailed hkey hleft => exact absurd (hready.symm.trans hbefore.2) nofun
  have hafter {result : NotificationStore × Except NotificationError SendNotificationResult}
      (hinApp : s.Handled ready (request.input .inApp) (outcome .inApp) result) : Blocked result.1 ready request :=
    ⟨fun hskips => hblocked.1 ((skips_of_extends (extends_of_handled hinApp) (key_ne request)).mp hskips), hblocked.2⟩
  cases h with
  | inApp hinApp => exact ⟨nofun, hafter hinApp⟩
  | email hinApp hemail =>
      have hbefore := hafter hinApp
      obtain ⟨-, hsame⟩ := hsend hemail hbefore
      refine ⟨nofun, ?_⟩
      show Blocked _ ready request
      rw [hsame]
      exact hbefore
  | done hinApp hemail =>
      have hbefore := hafter hinApp
      exact absurd rfl ((hsend hemail hbefore).1 _)

end Attempts

/-! ## The job -/

abbrev Attempt := Channel → SendOutcome

/-- The job before its first attempt. -/
def dispatch (store : NotificationStore) (maxAttempts : ℕ) : DispatchJob :=
  { store := { store with sends := [] }, maxAttempts }

namespace NotificationStore

/-- Every delivery left before an attempt is sent again by it. -/
def Resent (first : Id) (s s' : NotificationStore) : Prop :=
  ∀ id, s.Left first id → ∃ send ∈ s'.sends.drop s.sends.length, send.deliveryId = id

end NotificationStore

section Job

variable {options : ChannelOptions} {request : NotifyRequest} {job : DispatchJob} {attempts : List Attempt}

/-- A job that returns has sent one in-app notification and one email, and each of its attempts sends the
deliveries again that the ones before have left. -/
structure Completed (options : ChannelOptions) (request : NotifyRequest) (job : DispatchJob)
    (attempts : List Attempt) : Prop where
  once : (Machine.run (DispatchJob.step options request) job attempts).status = .returned →
    (Machine.run (DispatchJob.step options request) job attempts).store.SentOnce
  resent : Machine.Meets (DispatchJob.step options request)
    (fun before outcome => before.status = .running →
      NotificationStore.Resent job.store.deliveries.length before.store
        (before.step options request outcome).store) job attempts

/-- No attempt starts with a delivery left by one before, and the first one skips no channel, unless something
goes wrong on one of them. -/
structure Untroubled (options : ChannelOptions) (request : NotifyRequest) (job : DispatchJob)
    (attempts : List Attempt) : Prop where
  left : Machine.Meets (DispatchJob.step options request)
    (fun before _ => before.status = .running → ∀ id, ¬ before.store.Left job.store.deliveries.length id) job attempts
  unskipped : ∀ outcome ∈ attempts.head?,
    job.store.Passes options.ready (request.input .inApp) (outcome .inApp) →
    job.store.Passes options.ready (request.input .email) (outcome .email) →
    ¬ job.store.Skips (request.input .inApp) ∧ ¬ job.store.Skips (request.input .email)

theorem step_running (hemail : request.email = true) (hrunning : job.status = .running) (outcome : Attempt) :
    ∃ result, job.store.Attempted options.ready request outcome result ∧
      (job.step options request outcome).store = result.1 ∧
      ((∃ answer, result.2 = .ok answer ∧ (job.step options request outcome).status = .returned) ∨
        ∃ error, result.2 = .error error ∧ (job.step options request outcome).status ≠ .returned ∧
          ((job.step options request outcome).status = .running → error.isRetryable = true)) := by
  refine ⟨_, deliverLegacy_attempted hemail job.store options.ready outcome, ?_⟩
  unfold DispatchJob.step
  rw [hrunning]
  dsimp only
  obtain ⟨store, error | answer⟩ := job.store.deliverLegacy options.ready request outcome
  · refine ⟨rfl, .inr ⟨error, rfl, ?_⟩⟩
    dsimp only
    split
    · rename_i hagain
      exact ⟨nofun, fun _ => hagain.2⟩
    · exact ⟨nofun, nofun⟩
  · exact ⟨rfl, .inl ⟨answer, rfl, rfl⟩⟩

theorem step_over (hover : job.status ≠ .running) (outcome : Attempt) : job.step options request outcome = job := by
  unfold DispatchJob.step
  split
  · rfl
  · rfl
  · rename_i hrunning
    exact absurd hrunning hover

theorem run_over (hover : job.status ≠ .running) (attempts : List Attempt) :
    Machine.run (DispatchJob.step options request) job attempts = job := by
  induction attempts with
  | nil => rfl
  | cons outcome rest ih => rw [Machine.run_cons, step_over hover, ih]

/-- A delivery left before is never sent again. -/
theorem resent_iff (hemail : request.email = true) (hrunning : job.status = .running) (first : Id)
    (outcome : Attempt) :
    NotificationStore.Resent first job.store (job.step options request outcome).store ↔
      ∀ id, ¬ job.store.Left first id := by
  obtain ⟨result, hresult, hstore, -⟩ := @step_running options _ _ hemail hrunning outcome
  obtain ⟨tried, htried, hnew⟩ := attempted_sends hresult
  constructor
  · intro hresent id hleft
    obtain ⟨send, hsend, rfl⟩ := hresent id hleft
    rw [hstore, htried, List.drop_left] at hsend
    obtain ⟨-, delivery, hdelivery, -⟩ := hleft
    have hlt : send.deliveryId < job.store.deliveries.length := (List.getElem?_eq_some_iff.mp hdelivery).1
    exact absurd (hnew send hsend) (Nat.not_le.mpr hlt)
  · intro hnone id hleft
    exact absurd hleft (hnone id)

/-- A blocked job never returns. -/
theorem run_blocked (hemail : request.email = true) (hstatus : job.status ≠ .returned)
    (hblocked : Blocked job.store options.ready request) (attempts : List Attempt) :
    (Machine.run (DispatchJob.step options request) job attempts).status ≠ .returned := by
  have hinvariant := @Machine.invariant _ _ (DispatchJob.step options request)
    (fun job => job.status ≠ .returned ∧ Blocked job.store options.ready request) ?_ job ⟨hstatus, hblocked⟩ attempts
  · exact hinvariant.1
  · rintro job outcome ⟨hstatus, hblocked⟩
    by_cases hrunning : job.status = .running
    · obtain ⟨result, hresult, hstore, hcame⟩ := @step_running options _ _ hemail hrunning outcome
      obtain ⟨hnever, hstill⟩ := attempted_blocked hresult hblocked
      rw [hstore]
      rcases hcame with ⟨answer, hanswer, -⟩ | ⟨error, -, hnot, -⟩
      · exact absurd hanswer (hnever answer)
      · exact ⟨hnot, hstill⟩
    · rw [step_over hrunning]
      exact ⟨hstatus, hblocked⟩

/-- A job that starts with a first attempt that returns has sent on each channel it did not skip. -/
theorem sentOn_returned (hemail : request.email = true) {store : NotificationStore} {maxAttempts : ℕ}
    {outcome : Attempt} {rest : List Attempt}
    (hinApp : (dispatch store maxAttempts).store.Passes options.ready (request.input .inApp) (outcome .inApp))
    (hpasses : (dispatch store maxAttempts).store.Passes options.ready (request.input .email) (outcome .email)) :
    (Machine.run (DispatchJob.step options request) (dispatch store maxAttempts) (outcome :: rest)).status =
        .returned ∧
      ((Machine.run (DispatchJob.step options request) (dispatch store maxAttempts) (outcome :: rest)).store.SentOnce ↔
        ¬ (dispatch store maxAttempts).store.Skips (request.input .inApp) ∧
          ¬ (dispatch store maxAttempts).store.Skips (request.input .email)) := by
  obtain ⟨⟨after, came⟩, hresult, hstore, hcame⟩ :=
    @step_running options _ (dispatch store maxAttempts) hemail rfl outcome
  obtain ⟨answer, hanswer⟩ := (attempted_ok_iff hresult).mpr ⟨hinApp, hpasses⟩
  cases hanswer
  have hreturned : ((dispatch store maxAttempts).step options request outcome).status = .returned := by
    rcases hcame with ⟨-, -, hreturned⟩ | ⟨error, herror, -⟩
    · exact hreturned
    · cases herror
  have hrun : Machine.run (DispatchJob.step options request) (dispatch store maxAttempts) (outcome :: rest) =
      (dispatch store maxAttempts).step options request outcome :=
    run_over (fun h => absurd (hreturned.symm.trans h) nofun) rest
  rw [hrun]
  refine ⟨hreturned, ?_⟩
  rw [hstore]
  obtain ⟨hfirst, hsecond⟩ := sentOn_attempted hresult
  have hnone (channel : Channel) : (dispatch store maxAttempts).store.sentOn channel = 0 := rfl
  rw [hnone, Nat.zero_add] at hfirst hsecond
  unfold NotificationStore.SentOnce
  rw [hfirst, hsecond]
  refine and_congr ?_ ?_
  · split
    · rename_i h
      exact iff_of_false nofun (not_not_intro h)
    · rename_i h
      exact iff_of_true rfl h
  · split
    · rename_i h
      exact iff_of_false nofun (not_not_intro h)
    · rename_i h
      exact iff_of_true rfl h

/-- A job completes both channels exactly if no attempt has to make up for one before it, and its first attempt
skips no channel unless something goes wrong. -/
theorem dispatch_completes_iff (hemail : request.email = true) (store : NotificationStore) (maxAttempts : ℕ) :
    Completed options request (dispatch store maxAttempts) attempts ↔
      Untroubled options request (dispatch store maxAttempts) attempts := by
  constructor
  · intro h
    refine ⟨?_, ?_⟩
    · refine Machine.meets_mono (fun job outcome hresent hrunning => ?_) h.resent
      exact (resent_iff hemail hrunning _ outcome).mp (hresent hrunning)
    · intro outcome houtcome hinApp hpasses
      cases attempts with
      | nil => cases houtcome
      | cons first rest =>
          cases houtcome
          obtain ⟨hreturned, hsent⟩ := @sentOn_returned _ _ hemail _ _ _ rest hinApp hpasses
          exact hsent.mp (h.once hreturned)
  · intro h
    refine ⟨?_, ?_⟩
    · intro hreturned
      cases attempts with
      | nil => cases hreturned
      | cons outcome rest =>
          obtain ⟨⟨after, came⟩, hresult, hstore, hcame⟩ :=
            @step_running options _ (dispatch store maxAttempts) hemail rfl outcome
          rcases hcame with ⟨answer, hanswer, -⟩ | ⟨error, herror, hnot, hretry⟩
          · obtain ⟨hinApp, hpasses⟩ := (attempted_ok_iff hresult).mp ⟨answer, hanswer⟩
            exact (sentOn_returned hemail hinApp hpasses).2.mpr (h.unskipped outcome rfl hinApp hpasses)
          · rw [Machine.run_cons] at hreturned
            by_cases hrunning : ((dispatch store maxAttempts).step options request outcome).status = .running
            · cases rest with
              | nil => exact absurd hreturned hnot
              | cons second rest =>
                  cases herror
                  rcases attempted_retry rfl hresult (hretry hrunning) with ⟨id, hleft⟩ | hblocked
                  · exact absurd (hstore ▸ hleft) (h.left.2.1 hrunning id)
                  · exact absurd hreturned (run_blocked hemail hnot (hstore ▸ hblocked) _)
            · rw [run_over hrunning] at hreturned
              exact absurd hreturned hnot
    · refine Machine.meets_mono (fun job outcome hnone hrunning => ?_) h.left
      exact (resent_iff hemail hrunning _ outcome).mpr (hnone hrunning)

end Job

def knownUser : NotificationStore := { users := [{ id := 1, email := "ada@example.com" }] }

def keyed : NotifyRequest := { userId := 1, email := true, idempotencyKey := some "order-7" }

theorem order_notified :
    Completed { emailReady := true, smsReady := false } keyed (dispatch knownUser 3) [fun _ => .sent] := by
  refine (dispatch_completes_iff rfl knownUser 3).mpr ⟨⟨?_, trivial⟩, ?_⟩
  · rintro - id ⟨-, delivery, hdelivery, -⟩
    cases hdelivery
  · intro outcome houtcome
    cases houtcome
    decide

/-- The email of the first attempt fails for now. -/
def emailFailsOnce : List Attempt :=
  [fun channel => if channel = .email then .failed true else .sent, fun _ => .sent]

/-- With a key the second attempt takes the failed email for a duplicate; without one it sends the in-app
notification again. -/
theorem retry_loses_or_repeats :
    ¬ Completed { emailReady := true, smsReady := false } keyed (dispatch knownUser 3) emailFailsOnce ∧
      ¬ Completed { emailReady := true, smsReady := false } { keyed with idempotencyKey := none }
        (dispatch knownUser 3) emailFailsOnce := by
  refine ⟨fun h => ?_, fun h => ?_⟩
  · exact absurd (h.once (by decide)).2 (by decide)
  · exact absurd (h.once (by decide)).1 (by decide)

end DealFlow360.Notifications

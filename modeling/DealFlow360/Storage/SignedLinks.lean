import DealFlow360.Lib.Lists
import DealFlow360.Lib.Program
import DealFlow360.Lib.Spacing
import DealFlow360.Storage.SignedDownloads

/-!
# What a signed link authorises

The text that is signed tells key, expiry and subject apart, since neither of
the first two has a line break. So a link is verified with what it was made for
until it expires, and what is verified was signed. Both sides turn the subject
into bytes, where lone surrogates are no longer told apart.

- `signedText_inj`: the signed text determines key, expiry and subject, since
  only the last can hold a line break;
- `verifies_created`: a link is verified up to its expiry, with the key and the
  subject it was made for;
- `created_of_verified`: what is verified was signed for the same key, expiry
  and subject, under the usual assumption that no signature is forged;
- `signed_downloads`: the two directions together.

`lone_surrogate_replaced` is the one subject that does not come back as it was.
The last section has a platform of its own, on which all the assumptions hold.
-/

namespace DealFlow360.Storage

open Events (Text trimText isSpaceUnit toWellFormed WellFormed)
open Program

/-! ## Parts of the signed text -/

theorem trimText_trimText (text : Text) : trimText (trimText text) = trimText text := Spacing.strip_strip text

/-- A subject is normalised once. -/
theorem normalizeSubject_normalizeSubject (value : Option Text) :
    normalizeSubject (normalizeSubject value) = normalizeSubject value := by
  unfold normalizeSubject
  cases value with
  | none => rfl
  | some text =>
      rw [Option.bind_some]
      split_ifs with hempty
      · rfl
      · rw [Option.bind_some, trimText_trimText, if_neg hempty]

/-- The subject that a request comes down to has no lone surrogate. -/
def WellFormedSubject (value : Option Text) : Prop := ∀ subject ∈ normalizeSubject value, WellFormed subject

theorem wellFormed_getD {value : Option Text} (h : WellFormedSubject value) :
    WellFormed ((normalizeSubject value).getD []) := by
  unfold WellFormedSubject at h
  cases hsubject : normalizeSubject value with
  | none => rfl
  | some subject => exact h subject hsubject

theorem lt_of_isKeyUnit {unit : ℕ} (h : isKeyUnit unit = true) : unit < 0xD800 ∧ unit ≠ '\n'.toNat := by
  rw [isKeyUnit_iff] at h
  show _ ∧ unit ≠ 10
  omega

theorem lt_of_isDigit {unit : ℕ} (h : isDigit unit = true) : unit < 0xD800 ∧ unit ≠ '\n'.toNat := by
  rw [isDigit_iff] at h
  show _ ∧ unit ≠ 10
  omega

theorem isLowerHex_iff {unit : ℕ} : isLowerHex unit = true ↔ (48 ≤ unit ∧ unit ≤ 57) ∨ 97 ≤ unit ∧ unit ≤ 102 := by
  unfold isLowerHex
  rw [Bool.or_eq_true, isDigit_iff, Bool.and_eq_true, decide_eq_true_iff, decide_eq_true_iff]
  exact Iff.rfl

theorem lt_of_isLowerHex {unit : ℕ} (h : isLowerHex unit = true) : unit < 0xD800 ∧ isSpaceUnit unit = false := by
  have hcases := isLowerHex_iff.mp h
  refine ⟨by omega, not_space_of_isKeyUnit (isKeyUnit_iff.mpr ?_)⟩
  omega

section Texts

variable (platform : SigningPlatform)

theorem integerText_natCast {n : ℕ} (h : n < 10 ^ 21) : platform.integerText n = naturalText n := by
  unfold SigningPlatform.integerText
  dsimp only
  rw [Int.natAbs_natCast, if_pos h, if_neg (by omega)]

/-- The text of a number has no line break, and tells a small number apart from every other. -/
theorem integerText_spec (n : ℕ) :
    (∀ unit ∈ platform.integerText n, unit < 0xD800 ∧ unit ≠ '\n'.toNat) ∧
      ∀ k, platform.integerText n = naturalText k → n = k := by
  by_cases hsmall : n < 10 ^ 21
  · rw [integerText_natCast platform hsmall]
    refine ⟨fun unit hunit => lt_of_isDigit (isDigit_of_mem_naturalText hunit), fun k heq => ?_⟩
    rw [← digitsValue_naturalText n, heq, digitsValue_naturalText]
  · obtain ⟨hmark, hunits⟩ := platform.exponentText_marked n
    have htext : platform.integerText n = platform.exponentText n := by
      unfold SigningPlatform.integerText
      dsimp only
      rw [Int.natAbs_natCast, if_neg hsmall, if_neg (by omega)]
    rw [htext]
    refine ⟨fun unit hunit => ⟨(hunits unit hunit).1.trans (by decide), (hunits unit hunit).2⟩, fun k heq => ?_⟩
    rw [heq] at hmark
    exact absurd (isDigit_of_mem_naturalText hmark) (by decide)

/-- The text that is signed has the bytes of its parts. -/
theorem toWellFormed_signedText {key : Text} (hkey : KeyForm key) (n : ℕ) {subject : Option Text}
    (hsubject : WellFormed (subject.getD [])) :
    toWellFormed (platform.signedText key n subject) = platform.signedText key n subject := by
  unfold SigningPlatform.signedText
  have hline : ('\n'.toNat : ℕ) < 0xD800 := by decide
  rw [Events.toWellFormed_append (by decide), Events.toWellFormed_cons hline,
    Events.toWellFormed_append fun unit hunit => (lt_of_isKeyUnit (hkey.units unit hunit)).1,
    Events.toWellFormed_cons hline,
    Events.toWellFormed_append fun unit hunit => ((integerText_spec platform n).1 unit hunit).1,
    Events.toWellFormed_cons hline, hsubject]

/-- The signed text determines key, expiry and subject. -/
theorem signedText_inj {key key' : Text} (hkey : KeyForm key) (hkey' : KeyForm key') {n n' : ℕ} (hn : n < 10 ^ 21)
    {subject subject' : Option Text} (h : platform.signedText key n subject = platform.signedText key' n' subject') :
    key = key' ∧ n = n' ∧ subject.getD [] = subject'.getD [] := by
  have hline {key : Text} (hkey : KeyForm key) : '\n'.toNat ∉ key :=
    fun hmem => (lt_of_isKeyUnit (hkey.units _ hmem)).2 rfl
  have hnumber (n : ℕ) : '\n'.toNat ∉ platform.integerText n := fun hmem =>
    ((integerText_spec platform n).1 _ hmem).2 rfl
  unfold SigningPlatform.signedText at h
  have hparts := (List.cons.inj (List.append_cancel_left h)).2
  obtain ⟨hkeys, hrest⟩ := Lists.append_cons_inj (hline hkey) (hline hkey') hparts
  obtain ⟨hnumbers, hsubjects⟩ := Lists.append_cons_inj (hnumber n) (hnumber n') hrest
  refine ⟨hkeys, ?_, hsubjects⟩
  rw [integerText_natCast platform hn] at hnumbers
  exact ((integerText_spec platform n').2 n hnumbers.symm).symm

end Texts

/-! ## Calls -/

theorem mapError_eq_ok {ε ε' α : Type} {x : Except ε α} {f : ε → ε'} {a : α} : x.mapError f = .ok a ↔ x = .ok a := by
  cases x with
  | error e => exact ⟨nofun, nofun⟩
  | ok b => exact ⟨fun h => congrArg Except.ok (Except.ok.inj h), fun h => congrArg Except.ok (Except.ok.inj h)⟩

section Calls

variable {platform : SigningPlatform} {signing : StorageSigning}

/-- The link of an accepted call, whose expiry is a second from 1970 on that a date can hold. -/
theorem createSignedDownload_eq_ok {call : SignCall} {created : SignedDownload}
    (h : createSignedDownload platform signing call = .ok created) : KeyForm created.key ∧ ∃ n : ℕ,
      n ≤ 8640000000000 ∧ created.expiresAt = n * 1000 ∧
      created.url = { appUrl := signing.appUrl, searchParams :=
        [("key", toWellFormed created.key), ("expires", toWellFormed (platform.integerText n)),
          ("sig", toWellFormed
            (platform.signStorageDownload signing.secret created.key n (normalizeSubject call.subject)))] ++
        ((normalizeSubject call.subject).toList.map fun subject => ("uid", toWellFormed subject)) } := by
  unfold createSignedDownload at h
  obtain ⟨safeKey, hkey, h⟩ := except_bind_eq_ok.mp h
  obtain ⟨hform, hsafe⟩ := assertStorageKey_eq_ok.mp (mapError_eq_ok.mp hkey)
  obtain ⟨ttl, httl, h⟩ := except_bind_eq_ok.mp h
  have hpositive : 0 ≤ ttl := by
    unfold clampExpiry storageDownloadMaxSeconds at httl
    split at httl
    · rename_i value hseconds
      split_ifs at httl with hvalue
      obtain rfl := Except.ok.inj httl
      have hfloor : 0 ≤ ⌊value⌋ := Int.floor_nonneg.mpr (not_le.mp hvalue).le
      omega
    · cases httl
  dsimp only at h
  split_ifs at h
  split at h
  · cases h
  · rename_i expiresAt hclip
    obtain rfl := Except.ok.inj h
    unfold Dates.timeClip at hclip
    split_ifs at hclip with hbound
    obtain rfl := Option.some.inj hclip
    have hexpires : 0 ≤ call.expires ttl := by
      unfold SignCall.expires
      omega
    obtain ⟨n, hn⟩ := Int.eq_ofNat_of_zero_le hexpires
    rw [hn] at hbound ⊢
    rw [abs_of_nonneg (by omega)] at hbound
    exact ⟨hsafe ▸ hform, n, by omega, rfl, rfl⟩

/-- The text that an accepted call signs, as bytes. -/
def signedText? (platform : SigningPlatform) (signing : StorageSigning) (call : SignCall) : Option Text :=
  match createSignedDownload platform signing call with
  | .ok created =>
      some (toWellFormed (platform.signedText created.key (created.expiresAt / 1000) (normalizeSubject call.subject)))
  | .error _ => none

/-- Nobody has made a signature that the calls did not. -/
def Unforged (platform : SigningPlatform) (signing : StorageSigning) (calls : List SignCall)
    (signature : Text) : Prop :=
  ∀ text, decodeHex (platform.hexDigest signing.secret text) = decodeHex (platform.toLowerCase (trimText signature)) →
    text ∈ calls.filterMap (signedText? platform signing)

/-- What a request that goes through has been checked for. -/
theorem verifySignedDownload_eq_ok {input : VerifyInput} {now : ℕ} {claims : SignedDownloadClaims} :
    verifySignedDownload platform input now = .ok claims ↔ KeyForm (trimText input.key) ∧
      claims = { key := trimText input.key, subject := normalizeSubject input.subject } ∧
      ∃ n : ℕ, integerOf input.expires = some (n : ℤ) ∧ (now : ℤ) ≤ n * 1000 ∧
        safeEqualHex (platform.signStorageDownload input.secret (trimText input.key) n (normalizeSubject input.subject))
          (platform.toLowerCase (trimText input.signature)) = true := by
  unfold verifySignedDownload
  constructor
  · intro h
    obtain ⟨safeKey, hkey, h⟩ := except_bind_eq_ok.mp h
    obtain ⟨hform, rfl⟩ := assertStorageKey_eq_ok.mp (mapError_eq_ok.mp hkey)
    cases hexpires : integerOf input.expires with
    | none =>
        rw [hexpires] at h
        cases h
    | some expires =>
        rw [hexpires] at h
        dsimp only at h
        split_ifs at h with hpast hequal
        obtain ⟨n, rfl⟩ := Int.eq_ofNat_of_zero_le (show 0 ≤ expires by omega)
        exact ⟨hform, (Except.ok.inj h).symm, n, rfl, not_lt.mp hpast, by simpa using hequal⟩
  · rintro ⟨hform, rfl, n, hexpires, hnow, hequal⟩
    have hkey : (assertStorageKey input.key).mapError SignError.validation = .ok (trimText input.key) :=
      mapError_eq_ok.mpr (assertStorageKey_eq_ok.mpr ⟨hform, rfl⟩)
    refine except_bind_eq_ok.mpr ⟨_, hkey, ?_⟩
    rw [hexpires]
    dsimp only
    rw [if_neg (not_lt.mpr hnow), if_neg (by rw [hequal]; decide)]

end Calls

/-! ## Signatures -/

theorem hexValue_isSome {unit : ℕ} (h : isLowerHex unit = true) : (hexValue unit).isSome = true := by
  rcases isLowerHex_iff.mp h with ⟨hlow, hhigh⟩ | ⟨hlow, hhigh⟩
  · interval_cases unit <;> rfl
  · interval_cases unit <;> rfl

theorem decodeHex_ne_nil {text : Text} (hne : text ≠ []) (heven : text.length % 2 = 0)
    (hunits : ∀ unit ∈ text, isLowerHex unit = true) : decodeHex text ≠ [] := by
  match text with
  | [] => exact absurd rfl hne
  | [_] => cases heven
  | high :: low :: rest =>
      obtain ⟨hhigh, hrest⟩ := List.forall_mem_cons.mp hunits
      obtain ⟨first, hfirst⟩ := Option.isSome_iff_exists.mp (hexValue_isSome hhigh)
      obtain ⟨second, hsecond⟩ := Option.isSome_iff_exists.mp (hexValue_isSome (hrest low List.mem_cons_self))
      rw [decodeHex, hfirst, hsecond]
      exact List.cons_ne_nil _ _

/-- A digest is equal to itself, also when it is read from a link. -/
theorem safeEqualHex_digest (platform : SigningPlatform) (secret text : Text) :
    safeEqualHex (platform.hexDigest secret text)
      (platform.toLowerCase (trimText (toWellFormed (platform.hexDigest secret text)))) = true := by
  obtain ⟨hne, heven, hunits⟩ := platform.hexDigest_hex secret text
  have hread : platform.toLowerCase (trimText (toWellFormed (platform.hexDigest secret text))) =
      platform.hexDigest secret text := by
    rw [Events.wellFormed_of_lt fun unit hunit => (lt_of_isLowerHex (hunits unit hunit)).1,
      Events.trimText_of_inked fun unit hunit => (lt_of_isLowerHex (hunits unit hunit)).2,
      platform.toLowerCase_hex _ hunits]
  have hbytes : (decodeHex (platform.hexDigest secret text)).length ≠ 0 :=
    fun h => decodeHex_ne_nil hne heven hunits (List.length_eq_zero_iff.mp h)
  unfold safeEqualHex
  dsimp only
  rw [hread, if_neg (not_or.mpr ⟨hbytes, not_not.mpr rfl⟩), decide_eq_true rfl]

theorem decodeHex_eq_of_safeEqualHex {expected actual : Text} (h : safeEqualHex expected actual = true) :
    decodeHex expected = decodeHex actual := by
  unfold safeEqualHex at h
  dsimp only at h
  split_ifs at h
  exact of_decide_eq_true h

/-! ## Links -/

section Links

variable {platform : SigningPlatform} {signing : StorageSigning}

/-- A link reads back as the parameters that it was made from. -/
theorem query_eq {created : SignedDownload} {number signature secret : Text} {subject : Option Text}
    (hurl : created.url = { appUrl := signing.appUrl, searchParams :=
      [("key", toWellFormed created.key), ("expires", toWellFormed number), ("sig", toWellFormed signature)] ++
        (subject.toList.map fun subject => ("uid", toWellFormed subject)) }) :
    created.url.query secret =
      { key := toWellFormed created.key, expires := toWellFormed number, signature := toWellFormed signature,
        secret, subject := subject.map toWellFormed } := by
  rw [hurl]
  cases subject with
  | none => rfl
  | some text => rfl

/-- A link is verified up to its expiry, with the key and the subject that it was made for. -/
theorem verifies_created {call : SignCall} {created : SignedDownload}
    (hcreated : createSignedDownload platform signing call = .ok created) (hsubject : WellFormedSubject call.subject)
    {now : ℕ} (hnow : (now : ℤ) ≤ created.expiresAt) :
    verifySignedDownload platform (created.url.query signing.secret) now =
      .ok { key := created.key, subject := normalizeSubject call.subject } := by
  obtain ⟨hkey, n, hn, hexpires, hurl⟩ := createSignedDownload_eq_ok hcreated
  have hsmall : n < 10 ^ 21 := hn.trans_lt (by decide)
  have hkeyText : toWellFormed created.key = created.key :=
    Events.wellFormed_of_lt fun unit hunit => (lt_of_isKeyUnit (hkey.units unit hunit)).1
  have hnumber : toWellFormed (platform.integerText n) = naturalText n := by
    rw [integerText_natCast platform hsmall]
    exact Events.wellFormed_of_lt fun unit hunit => (lt_of_isDigit (isDigit_of_mem_naturalText hunit)).1
  have hsame : (normalizeSubject call.subject).map toWellFormed = normalizeSubject call.subject := by
    cases htext : normalizeSubject call.subject with
    | none => rfl
    | some text => exact congrArg some (hsubject text htext)
  rw [query_eq hurl, hkeyText, hnumber, hsame]
  refine verifySignedDownload_eq_ok.mpr ⟨?_, ?_, n, ?_, ?_, ?_⟩
  · dsimp only
    rwa [hkey.trimText_eq]
  · dsimp only
    rw [hkey.trimText_eq, normalizeSubject_normalizeSubject]
  · exact integerOf_naturalText (hn.trans (by decide))
  · exact hexpires ▸ hnow
  · dsimp only
    rw [hkey.trimText_eq, normalizeSubject_normalizeSubject]
    exact safeEqualHex_digest platform signing.secret _

theorem eq_of_getD_normalized {value value' : Option Text}
    (h : (normalizeSubject value).getD [] = (normalizeSubject value').getD []) :
    normalizeSubject value = normalizeSubject value' := by
  have hne {value : Option Text} {text : Text} (h : normalizeSubject value = some text) : text ≠ [] := by
    unfold normalizeSubject at h
    obtain ⟨raw, -, h⟩ := Option.bind_eq_some_iff.mp h
    split_ifs at h with hempty
    exact Option.some.inj h ▸ hempty
  cases hleft : normalizeSubject value with
  | none =>
      cases hright : normalizeSubject value' with
      | none => rfl
      | some text =>
          rw [hleft, hright] at h
          exact absurd h.symm (hne hright)
  | some text =>
      cases hright : normalizeSubject value' with
      | none =>
          rw [hleft, hright] at h
          exact absurd h (hne hleft)
      | some text' =>
          rw [hleft, hright] at h
          exact congrArg some h

/-- What is verified was signed for the same key, expiry and subject. -/
theorem created_of_verified {calls : List SignCall} {input : VerifyInput} {now : ℕ} {claims : SignedDownloadClaims}
    (hsecret : input.secret = signing.secret) (hinput : WellFormedSubject input.subject)
    (hcalls : ∀ call ∈ calls, WellFormedSubject call.subject)
    (hunforged : Unforged platform signing calls input.signature)
    (h : verifySignedDownload platform input now = .ok claims) : ∃ call ∈ calls, ∃ created,
      createSignedDownload platform signing call = .ok created ∧ created.key = claims.key ∧
        normalizeSubject call.subject = claims.subject ∧
        integerOf input.expires = some (created.expiresAt / 1000) ∧ (now : ℤ) ≤ created.expiresAt := by
  obtain ⟨hform, rfl, n, hexpires, hnow, hequal⟩ := verifySignedDownload_eq_ok.mp h
  rw [hsecret] at hequal
  obtain ⟨call, hcall, hsigned⟩ := List.mem_filterMap.mp (hunforged _ (decodeHex_eq_of_safeEqualHex hequal))
  unfold signedText? at hsigned
  split at hsigned
  · rename_i created hcreated
    obtain ⟨hkey, m, hm, hexpiresAt, -⟩ := createSignedDownload_eq_ok hcreated
    have hsecond : created.expiresAt / 1000 = (m : ℤ) := by omega
    have htexts := Option.some.inj hsigned
    rw [hsecond, toWellFormed_signedText platform hkey m (wellFormed_getD (hcalls call hcall)),
      toWellFormed_signedText platform hform n (wellFormed_getD hinput)] at htexts
    obtain ⟨hkeys, rfl, hsubjects⟩ := signedText_inj platform hkey hform (hm.trans_lt (by decide)) htexts
    refine ⟨call, hcall, created, hcreated, hkeys, eq_of_getD_normalized hsubjects, ?_, ?_⟩
    · rw [hexpires, hsecond]
    · rwa [hexpiresAt]
  · cases hsigned

end Links

/-! ## A platform -/

def devSecret : Text := codeUnits "dev-storage-signing-secret-not-jwt"

def linkText (subject : Text) : Text := codeUnits "v2\nnotes/a.txt\n1700000300\n" ++ subject

def spelledBits (text : Text) : List ℕ := text.flatMap fun unit => List.replicate unit 0 ++ [1]

def bitBytes (bits : List ℕ) : Text := bits.flatMap fun bit => ['0'.toNat, if bit = 0 then '0'.toNat else '1'.toNat]

/-- The HMACs of two links. Other texts are spelled out over more than 32 bytes. -/
def devDigest (secret text : Text) : Text :=
  if secret = devSecret ∧ text = linkText (codeUnits "u1") then
    codeUnits "5a5fb85cc6c3d7220c80ac77e95bd7bed6627eac67f0f71a178dab7517523b30"
  else if secret = devSecret ∧ text = linkText [0xFFFD] then
    codeUnits "e551e14500bc3f1daffe05b589c9ac6d1c169e957f17f8950e03244a60c7de95"
  else bitBytes (List.replicate 33 0 ++ spelledBits secret ++ 0 :: 0 :: spelledBits text)

theorem bitBytes_cons (bit : ℕ) (bits : List ℕ) :
    bitBytes (bit :: bits) = '0'.toNat :: (if bit = 0 then '0'.toNat else '1'.toNat) :: bitBytes bits := rfl

theorem bitBytes_units (bits : List ℕ) : ∀ unit ∈ bitBytes bits, isLowerHex unit = true := by
  induction bits with
  | nil => exact nofun
  | cons bit bits ih =>
      rw [bitBytes_cons]
      refine List.forall_mem_cons.mpr ⟨by decide, List.forall_mem_cons.mpr ⟨?_, ih⟩⟩
      split_ifs <;> decide

theorem bitBytes_even (bits : List ℕ) : (bitBytes bits).length % 2 = 0 := by
  induction bits with
  | nil => rfl
  | cons bit bits ih =>
      rw [bitBytes_cons, List.length_cons, List.length_cons]
      omega

theorem decodeHex_bitBytes (bits : List ℕ) : (decodeHex (bitBytes bits)).length = bits.length := by
  induction bits with
  | nil => rfl
  | cons bit bits ih =>
      rw [bitBytes_cons]
      split_ifs
      · exact congrArg (· + 1) ih
      · exact congrArg (· + 1) ih

def devPlatform : SigningPlatform where
  hexDigest := devDigest
  hexDigest_hex secret text := by
    unfold devDigest
    split_ifs
    · decide
    · decide
    · exact ⟨List.cons_ne_nil _ _, bitBytes_even _, bitBytes_units _⟩
  exponentText _ := codeUnits "1e+21"
  exponentText_marked _ := by decide
  toLowerCase text := text.map fun unit => if 'A'.toNat ≤ unit ∧ unit ≤ 'Z'.toNat then unit + 32 else unit
  toLowerCase_hex text h := by
    refine (List.map_congr_left fun unit hunit => ?_).trans (List.map_id text)
    have hcases := isLowerHex_iff.mp (h unit hunit)
    show (if 65 ≤ unit ∧ unit ≤ 90 then unit + 32 else unit) = unit
    rw [if_neg (by omega)]
  validUrl _ := true

def devSigning : StorageSigning := { appUrl := codeUnits "http://localhost:5173", secret := devSecret }

def noteCall (subject : Text) : SignCall where
  key := codeUnits " notes/a.txt"
  expiresInSeconds := .finite 300
  subject := some subject
  now := 1700000000500

def noteLink (signature subject : Text) : SignedDownload where
  key := codeUnits "notes/a.txt"
  url := { appUrl := codeUnits "http://localhost:5173"
           searchParams := [("key", codeUnits "notes/a.txt"), ("expires", codeUnits "1700000300"), ("sig", signature),
             ("uid", subject)] }
  expiresAt := 1700000300000

def signatureOfUser : Text := codeUnits "5a5fb85cc6c3d7220c80ac77e95bd7bed6627eac67f0f71a178dab7517523b30"

def signatureOfReplaced : Text := codeUnits "e551e14500bc3f1daffe05b589c9ac6d1c169e957f17f8950e03244a60c7de95"

/-! ## What links authorise -/

/-- Links are verified for what was signed, and nothing else is. -/
theorem signed_downloads (platform : SigningPlatform) (signing : StorageSigning) :
    (∀ call created, createSignedDownload platform signing call = .ok created → WellFormedSubject call.subject →
      ∀ now : ℕ, (now : ℤ) ≤ created.expiresAt →
        verifySignedDownload platform (created.url.query signing.secret) now =
          .ok { key := created.key, subject := normalizeSubject call.subject }) ∧
    ∀ calls input (now : ℕ) claims, input.secret = signing.secret → WellFormedSubject input.subject →
      (∀ call ∈ calls, WellFormedSubject call.subject) → Unforged platform signing calls input.signature →
      verifySignedDownload platform input now = .ok claims → ∃ call ∈ calls, ∃ created,
        createSignedDownload platform signing call = .ok created ∧ created.key = claims.key ∧
          normalizeSubject call.subject = claims.subject ∧
          integerOf input.expires = some (created.expiresAt / 1000) ∧ (now : ℤ) ≤ created.expiresAt :=
  ⟨fun _ _ hcreated hsubject _ hnow => verifies_created hcreated hsubject hnow,
    fun _ _ _ _ hsecret hinput hcalls hunforged h => created_of_verified hsecret hinput hcalls hunforged h⟩

theorem signed_downloads_of_note : verifySignedDownload devPlatform
      ((noteLink signatureOfUser (codeUnits "u1")).url.query devSecret) 1700000300000 =
        .ok { key := codeUnits "notes/a.txt", subject := some (codeUnits "u1") } ∧
    ∃ call ∈ [noteCall (codeUnits "u1 ")], ∃ created, createSignedDownload devPlatform devSigning call = .ok created ∧
      created.key = codeUnits "notes/a.txt" ∧ normalizeSubject call.subject = some (codeUnits "u1") ∧
      integerOf (codeUnits "1700000300") = some (created.expiresAt / 1000) ∧ (1700000300000 : ℤ) ≤
        created.expiresAt := by
  have hcreated : createSignedDownload devPlatform devSigning (noteCall (codeUnits "u1 ")) =
      .ok (noteLink signatureOfUser (codeUnits "u1")) := by
    decide +kernel
  have hsubject : WellFormedSubject (some (codeUnits "u1 ")) := fun subject hsubject => by
    obtain rfl : codeUnits "u1" = subject := Option.some.inj (Eq.trans (by decide) hsubject)
    decide
  have hqueried : WellFormedSubject (some (codeUnits "u1")) := fun subject hsubject => by
    obtain rfl : codeUnits "u1" = subject := Option.some.inj (Eq.trans (by decide) hsubject)
    decide
  have hunforged : Unforged devPlatform devSigning [noteCall (codeUnits "u1 ")] signatureOfUser := by
    intro text hdigest
    have hdigest : decodeHex (devDigest devSecret text) =
        decodeHex (devPlatform.toLowerCase (trimText signatureOfUser)) :=
      hdigest
    unfold devDigest at hdigest
    split_ifs at hdigest with huser hreplaced
    · rw [huser.2]
      decide
    · exact absurd hdigest (by decide)
    · have hlength := congrArg List.length hdigest
      rw [decodeHex_bitBytes, List.length_append, List.length_append, List.length_replicate] at hlength
      have hshort : (decodeHex (devPlatform.toLowerCase (trimText signatureOfUser))).length = 32 := by decide
      omega
  have hverified := (signed_downloads devPlatform devSigning).1 (noteCall (codeUnits "u1 ")) _ hcreated hsubject
    1700000300000 (by decide)
  refine ⟨hverified.trans (by decide), ?_⟩
  exact (signed_downloads devPlatform devSigning).2 [noteCall (codeUnits "u1 ")]
    ((noteLink signatureOfUser (codeUnits "u1")).url.query devSecret) 1700000300000
    { key := codeUnits "notes/a.txt", subject := some (codeUnits "u1") } (by decide) hqueried
    (fun call hcall => List.mem_singleton.mp hcall ▸ hsubject) hunforged (hverified.trans (by decide))

/-- A lone surrogate of a subject comes back as the replacement character. -/
theorem lone_surrogate_replaced : ¬ ∀ call created, createSignedDownload devPlatform devSigning call = .ok created →
    ∀ now : ℕ, (now : ℤ) ≤ created.expiresAt →
      verifySignedDownload devPlatform (created.url.query devSecret) now =
        .ok { key := created.key, subject := normalizeSubject call.subject } := by
  intro h
  have hcreated : createSignedDownload devPlatform devSigning (noteCall [0xD800]) =
      .ok (noteLink signatureOfReplaced [0xFFFD]) := by
    decide +kernel
  have hverified := h (noteCall [0xD800]) _ hcreated 1700000300000 (by decide)
  exact absurd hverified (by decide +kernel)

end DealFlow360.Storage

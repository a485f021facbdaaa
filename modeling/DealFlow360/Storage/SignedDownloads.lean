import DealFlow360.Dates
import DealFlow360.Storage.StorageKeys
import DealFlow360.WellFormed

/-!
# Signed downloads

`storage.sign.ts`: a link to a stored file carries its key, the second in which
it expires, the user it was made for and an HMAC of the three. The HMAC, lower
case, the text of very large numbers and the parsing of the application's URL
are the platform's. The query of a link is kept as its parameters, which are
texts without lone surrogates.

`createSignedDownload` checks its arguments in the order of the source and
answers with the link and its expiry; `verifySignedDownload` reads the
parameters back, checks the expiry against the clock and compares the two
signatures in constant time. Signatures are hexadecimal texts of which each
unit counts by its low byte, as the platform's decoder reads them; what is no
hexadecimal digit ends the decoding.
-/

namespace DealFlow360.Storage

open Events (Text trimText toWellFormed)

inductive SignError where
  | validation (error : ValidationError)
  | authentication (message : String)
  | badUrl
  | badDate
  deriving DecidableEq, Repr

def isLowerHex (unit : ℕ) : Bool := isDigit unit || ('a'.toNat ≤ unit && unit ≤ 'f'.toNat)

/-- What the links take from the platform. -/
structure SigningPlatform where
  /-- `createHmac('sha256', secret).update(text).digest('hex')` of a text without lone surrogates. -/
  hexDigest : Text → Text → Text
  hexDigest_hex : ∀ secret text, hexDigest secret text ≠ [] ∧ (hexDigest secret text).length % 2 = 0 ∧
    ∀ unit ∈ hexDigest secret text, isLowerHex unit = true
  /-- The text of a number from 10^21 on, which has an exponent. -/
  exponentText : ℕ → Text
  exponentText_marked : ∀ n, 'e'.toNat ∈ exponentText n ∧ ∀ unit ∈ exponentText n, unit < 128 ∧ unit ≠ '\n'.toNat
  toLowerCase : Text → Text
  toLowerCase_hex : ∀ text, (∀ unit ∈ text, isLowerHex unit = true) → toLowerCase text = text
  /-- Whether `new URL(path, appUrl)` succeeds. -/
  validUrl : Text → Bool

structure StorageSigning where
  appUrl : Text
  secret : Text
  deriving DecidableEq, Repr

structure DownloadUrl where
  appUrl : Text
  searchParams : List (String × Text)
  deriving DecidableEq, Repr

/-- `searchParams.get`. -/
def DownloadUrl.get (url : DownloadUrl) (name : String) : Option Text :=
  (url.searchParams.find? fun param => param.1 = name).map (·.2)

/-- The answer of `createSignedDownload`, with the time of `expiresAt`. -/
structure SignedDownload where
  key : Text
  url : DownloadUrl
  expiresAt : ℤ
  deriving DecidableEq, Repr

structure SignedDownloadClaims where
  key : Text
  subject : Option Text
  deriving DecidableEq, Repr

/-! ## What is signed -/

def storageDownloadMaxSeconds : ℤ := 86400

def normalizeSubject (value : Option Text) : Option Text :=
  value.bind fun text => if trimText text = [] then none else some (trimText text)

def clampExpiry (seconds : JsNumber) : Except SignError ℤ :=
  match seconds with
  | .finite value =>
      if value ≤ 0 then
        .error (.validation { message := "Invalid download expiry", issues :=
          [{ path := "expiresInSeconds", message := "Expiry must be a positive number of seconds",
             code := "custom" }] })
      else .ok (min ⌊value⌋ storageDownloadMaxSeconds)
  | _ =>
      .error (.validation { message := "Invalid download expiry", issues :=
        [{ path := "expiresInSeconds", message := "Expiry must be a positive number of seconds", code := "custom" }] })

/-- `String(n)` of an integer. -/
def SigningPlatform.integerText (platform : SigningPlatform) (n : ℤ) : Text :=
  let magnitude := if n.natAbs < 10 ^ 21 then naturalText n.natAbs else platform.exponentText n.natAbs
  if n < 0 then '-'.toNat :: magnitude else magnitude

def SigningPlatform.signedText (platform : SigningPlatform) (key : Text) (expires : ℤ) (subject : Option Text) : Text :=
  codeUnits "v2" ++ '\n'.toNat :: (key ++ '\n'.toNat :: (platform.integerText expires ++ '\n'.toNat :: subject.getD []))

/-- The HMAC of the text in UTF-8. -/
def SigningPlatform.signStorageDownload (platform : SigningPlatform) (secret key : Text) (expires : ℤ)
    (subject : Option Text) : Text :=
  platform.hexDigest secret (toWellFormed (platform.signedText key expires subject))

/-! ## Hexadecimal texts -/

/-- The platform reads a digit from the low byte of a code unit. -/
def hexValue (unit : ℕ) : Option ℕ := (digitValue (unit % 256)).filter (· < 16)

/-- `Buffer.from(text, 'hex')`: the bytes before the first pair that is not hexadecimal. -/
def decodeHex : Text → List ℕ
  | high :: low :: rest =>
      match hexValue high, hexValue low with
      | some high, some low => (16 * high + low) :: decodeHex rest
      | _, _ => []
  | _ => []

def safeEqualHex (expected actual : Text) : Bool :=
  let left := decodeHex expected
  let right := decodeHex actual
  if left.length = 0 ∨ left.length ≠ right.length then false else left = right

/-! ## Links -/

/-- A call of `createSignedDownload`, with the time of the clock. -/
structure SignCall where
  key : Text
  expiresInSeconds : JsNumber
  subject : Option Text
  now : ℕ
  deriving DecidableEq

/-- The second in which the link of a call expires. -/
def SignCall.expires (call : SignCall) (ttl : ℤ) : ℤ := call.now / 1000 + ttl

def createSignedDownload (platform : SigningPlatform) (signing : StorageSigning) (call : SignCall) :
    Except SignError SignedDownload := do
  let safeKey ← (assertStorageKey call.key).mapError .validation
  let ttl ← clampExpiry call.expiresInSeconds
  let expires := call.expires ttl
  let subject := normalizeSubject call.subject
  let signature := platform.signStorageDownload signing.secret safeKey expires subject
  if platform.validUrl signing.appUrl = false then .error .badUrl
  else
    match Dates.timeClip (expires * 1000) with
    | none => .error .badDate
    | some expiresAt =>
        .ok { key := safeKey
              url := { appUrl := signing.appUrl
                       searchParams := [("key", toWellFormed safeKey),
                         ("expires", toWellFormed (platform.integerText expires)), ("sig", toWellFormed signature)] ++
                           (subject.toList.map fun subject => ("uid", toWellFormed subject)) }
              expiresAt }

structure VerifyInput where
  key : Text
  expires : Text
  signature : Text
  secret : Text
  subject : Option Text
  deriving DecidableEq, Repr

/-- The query parameters of a link, as they are read back. -/
def DownloadUrl.query (url : DownloadUrl) (secret : Text) : VerifyInput where
  key := (url.get "key").getD []
  expires := (url.get "expires").getD []
  signature := (url.get "sig").getD []
  secret
  subject := url.get "uid"

def verifySignedDownload (platform : SigningPlatform) (input : VerifyInput) (now : ℕ) :
    Except SignError SignedDownloadClaims := do
  let safeKey ← (assertStorageKey input.key).mapError .validation
  match integerOf input.expires with
  | none => .error (.authentication "Download link has expired")
  | some expires =>
      if expires * 1000 < now then .error (.authentication "Download link has expired")
      else
        let subject := normalizeSubject input.subject
        let expected := platform.signStorageDownload input.secret safeKey expires subject
        let actual := platform.toLowerCase (trimText input.signature)
        if safeEqualHex expected actual = false then .error (.authentication "Download link is invalid")
        else .ok { key := safeKey, subject }

end DealFlow360.Storage

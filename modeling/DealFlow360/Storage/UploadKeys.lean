import DealFlow360.Lib.Program
import DealFlow360.Storage.UploadValidation
import Mathlib.Data.List.Chain

/-!
# Keys of uploads

The stored name of an accepted upload is safe for a key in all but one respect:
its stem is cut to 180 characters, and where the cut falls behind a dot the dot
of the extension makes it two.

The stored name is followed through its three steps: the stem is cleaned, cut,
and given its extension.

- `stem_spec` and `cleanedStem_spec`: what the stem is before the cut;
- `sanitizeStoredFilename_spec`: a stored name has two dots side by side
  exactly if its stem was cut behind a dot;
- `uploadKeyText_form`: such a key is accepted exactly if its dots are apart;
- `upload_key_usable_iff`: for every accepted upload and every owner, its key
  can be used again exactly in the other case.
-/

namespace DealFlow360.Storage

open Events (Text trimText isSpaceUnit)
open Paths Program

/-! ## Dots side by side -/

/-- No two dots are next to each other. -/
def Apart (text : Text) : Prop := text.IsChain fun a b => ¬(a = '.'.toNat ∧ b = '.'.toNat)

theorem apart_iff {text : Text} : Apart text ↔ ¬dotDot <:+: text := by
  have hdots : dotDot = ['.'.toNat, '.'.toNat] := by decide
  rw [hdots]
  unfold Apart
  induction text with
  | nil => exact ⟨fun _ h => absurd h.length_le (by decide), fun _ => .nil⟩
  | cons first text ih =>
      rw [List.infix_cons_iff, not_or]
      refine Iff.trans ?_ (and_congr_right fun _ => ih)
      cases text with
      | nil => exact ⟨fun _ => ⟨fun h => absurd h.length_le (Nat.not_succ_le_self 1), .nil⟩, fun _ => .singleton first⟩
      | cons second text =>
          rw [List.isChain_cons_cons]
          refine and_congr_left fun _ => not_congr ?_
          rw [List.cons_prefix_cons, List.cons_prefix_cons]
          exact ⟨fun h => ⟨h.1.symm, h.2.symm, List.nil_prefix⟩, fun h => ⟨h.1.symm, h.2.1.symm⟩⟩

theorem apart_of_not_mem {text : Text} (h : '.'.toNat ∉ text) : Apart text := by
  rw [apart_iff]
  intro hdots
  have hmem : '.'.toNat ∈ dotDot := by decide
  exact h (hdots.subset hmem)

theorem apart_append {left right : Text} : Apart (left ++ right) ↔
    Apart left ∧ Apart right ∧ ¬(left.getLast? = some '.'.toNat ∧ right.head? = some '.'.toNat) := by
  unfold Apart
  rw [List.isChain_append]
  refine and_congr_right fun _ => and_congr_right fun _ => ?_
  constructor
  · rintro h ⟨hlast, hhead⟩
    exact h _ hlast _ hhead ⟨rfl, rfl⟩
  · rintro h a hlast b hhead ⟨rfl, rfl⟩
    exact h ⟨hlast, hhead⟩

/-! ## Stored names -/

theorem assertSafeFilename_eq_ok {originalname original : Text} {maxLength : ℕ}
    (h : assertSafeFilename originalname maxLength = .ok original) : Apart original ∧ original ≠ dot := by
  unfold assertSafeFilename at h
  dsimp only at h
  split_ifs at h with hempty hlong hchars hbase
  obtain rfl := Except.ok.inj h
  simp only [not_or] at hchars
  obtain ⟨-, -, hdots, hdot, -⟩ := hchars
  exact ⟨apart_iff.mpr (by simpa [includesDotDot] using hdots), hdot⟩

theorem splitLastDot_spec (name : Text) : ('.'.toNat ∉ name ∧ (splitLastDot name).1 = []) ∨
    (name = (splitLastDot name).1 ++ '.'.toNat :: (splitLastDot name).2 ∧ '.'.toNat ∉ (splitLastDot name).2) := by
  have hsplit : name.rdropWhile (· ≠ '.'.toNat) ++ name.rtakeWhile (· ≠ '.'.toNat) = name := by
    unfold List.rdropWhile List.rtakeWhile
    rw [← List.reverse_append, List.takeWhile_append_dropWhile, List.reverse_reverse]
  have hafter : '.'.toNat ∉ name.rtakeWhile (· ≠ '.'.toNat) := fun hmem => by
    simpa using List.mem_rtakeWhile_imp hmem
  unfold splitLastDot
  dsimp only
  by_cases hnil : name.rdropWhile (· ≠ '.'.toNat) = []
  · refine .inl ⟨?_, by rw [hnil, List.dropLast_nil]⟩
    rw [hnil, List.nil_append] at hsplit
    rwa [hsplit] at hafter
  · have hlast : (name.rdropWhile (· ≠ '.'.toNat)).getLast hnil = '.'.toNat := by
      simpa using List.rdropWhile_last_not (· ≠ '.'.toNat) name hnil
    refine .inr ⟨?_, hafter⟩
    have hconcat := List.dropLast_append_getLast hnil
    rw [hlast] at hconcat
    rw [← List.singleton_append, ← List.append_assoc, hconcat, hsplit]

/-- The stem from which a stored name is made ends in something else than a dot. -/
theorem stem_spec {original : Text} (hapart : Apart original) (hdot : original ≠ dot) {stem : Text}
    (hstem : stem = if (splitLastDot original).1 = [] then original else (splitLastDot original).1) :
    Apart stem ∧ stem.getLast? ≠ some '.'.toNat := by
  rcases splitLastDot_spec original with ⟨hnone, hnil⟩ | ⟨hsplit, hafter⟩
  · rw [if_pos hnil] at hstem
    rw [hstem]
    exact ⟨hapart, fun hlast => hnone (List.mem_of_getLast? hlast)⟩
  · generalize (splitLastDot original).1 = before, (splitLastDot original).2 = after at hsplit hafter hstem
    split_ifs at hstem with hnil
    · rw [hstem]
      refine ⟨hapart, fun hlast => ?_⟩
      rw [hnil, List.nil_append] at hsplit
      cases after with
      | nil => exact hdot (hsplit.trans (by decide))
      | cons unit after =>
          rw [hsplit, List.getLast?_cons_cons] at hlast
          exact hafter (List.mem_of_getLast? hlast)
    · rw [hsplit, apart_append] at hapart
      rw [hstem]
      exact ⟨hapart.1, fun hlast => hapart.2.2 ⟨hlast, rfl⟩⟩

theorem isKeyUnit_of_isNameUnit {unit : ℕ} (h : isNameUnit unit = true) : isKeyUnit unit = true := by
  unfold isNameUnit at h
  unfold isKeyUnit
  simp only [Bool.or_eq_true] at h ⊢
  tauto

theorem isNameUnit_safeNameUnit (unit : ℕ) : isNameUnit (safeNameUnit unit) = true := by
  unfold safeNameUnit
  split_ifs with h
  · exact h
  · rfl

theorem safeNameUnit_eq_dot {unit : ℕ} : safeNameUnit unit = '.'.toNat ↔ unit = '.'.toNat := by
  unfold safeNameUnit
  split_ifs with h
  · exact Iff.rfl
  · refine iff_of_false (by decide) fun heq => h ?_
    rw [heq]
    rfl

/-- The cleaned stem keeps the dots of the stem apart, and does not end in one. -/
theorem cleanedStem_spec {original : Text} (hapart : Apart original) (hdot : original ≠ dot) :
    Apart (cleanedStem original) ∧ (cleanedStem original).getLast? ≠ some '.'.toNat ∧
      ∀ unit ∈ cleanedStem original, isNameUnit unit = true := by
  obtain ⟨hstem, hlast⟩ := stem_spec hapart hdot rfl
  unfold cleanedStem
  dsimp only
  generalize (if (splitLastDot original).1 = [] then original else (splitLastDot original).1) = stem at hstem hlast
  have hmap : Apart (stem.map safeNameUnit) := by
    unfold Apart
    rw [List.isChain_map]
    refine hstem.imp fun a b h => ?_
    rwa [safeNameUnit_eq_dot, safeNameUnit_eq_dot]
  have hmapLast : (stem.map safeNameUnit).getLast? ≠ some '.'.toNat := by
    rw [List.getLast?_map]
    intro h
    obtain ⟨unit, hunit, heq⟩ := Option.map_eq_some_iff.mp h
    rw [safeNameUnit_eq_dot.mp heq] at hunit
    exact hlast hunit
  have hunits : ∀ unit ∈ stem.map safeNameUnit, isNameUnit unit = true := by
    intro unit hunit
    obtain ⟨unit', -, rfl⟩ := List.mem_map.mp hunit
    exact isNameUnit_safeNameUnit unit'
  split_ifs with hnil
  · exact ⟨apart_of_not_mem (by decide), by decide, by decide⟩
  · have hsuffix : (stem.map safeNameUnit).dropWhile (· = '.'.toNat) <:+ stem.map safeNameUnit :=
      List.dropWhile_suffix _
    refine ⟨hmap.suffix hsuffix, fun h => hmapLast ?_, fun unit hunit => hunits unit (hsuffix.subset hunit)⟩
    obtain ⟨front, hfront⟩ := hsuffix
    rw [← hfront, List.getLast?_append_of_ne_nil _ hnil]
    exact h

theorem extension_apart (extension : StorageExtension) : Apart ('.'.toNat :: extension.text) := by
  rw [apart_iff]
  cases extension <;> decide

theorem extension_units (extension : StorageExtension) :
    (∀ unit ∈ extension.text, isNameUnit unit = true) ∧ extension.text.length ≤ 4 := by
  cases extension <;> decide

/-- A stored name has two dots side by side exactly if its stem was cut behind a dot. -/
theorem sanitizeStoredFilename_spec {original : Text} (hapart : Apart original) (hdot : original ≠ dot)
    (extension : StorageExtension) :
    (Apart (sanitizeStoredFilename original extension) ↔ (cleanedStem original)[179]? ≠ some '.'.toNat) ∧
      (∀ unit ∈ sanitizeStoredFilename original extension, isNameUnit unit = true) ∧
      (sanitizeStoredFilename original extension).length ≤ 185 := by
  obtain ⟨hclean, hlast, hunits⟩ := cleanedStem_spec hapart hdot
  obtain ⟨hextension, hlength⟩ := extension_units extension
  have hcut : Apart ((cleanedStem original).take 180) := hclean.take 180
  unfold sanitizeStoredFilename
  refine ⟨?_, ?_, ?_⟩
  · rw [apart_append, and_iff_right hcut, and_iff_right (extension_apart extension), List.head?_cons,
      List.getLast?_take, if_neg (by decide)]
    refine not_congr ?_
    cases (cleanedStem original)[179]? with
    | none => exact iff_of_false (fun h => hlast h.1) nofun
    | some unit => exact ⟨fun h => h.1, fun h => ⟨h, rfl⟩⟩
  · intro unit hunit
    rcases List.mem_append.mp hunit with hunit | hunit
    · exact hunits unit (List.mem_of_mem_take hunit)
    · rcases List.mem_cons.mp hunit with rfl | hunit
      · rfl
      · exact hextension unit hunit
  · rw [List.length_append, List.length_take, List.length_cons]
    omega

/-! ## Keys -/

/-- Characters that a key may have and that are no dots. -/
def Plain (text : Text) : Prop := ∀ unit ∈ text, isKeyUnit unit = true ∧ unit ≠ '.'.toNat

theorem plain_of_isUuid {text : Text} (h : isUuid text = true) : Plain text ∧ text.length = 36 := by
  unfold isUuid at h
  rw [Bool.and_eq_true, decide_eq_true_eq, List.all_eq_true] at h
  refine ⟨fun unit hunit => ?_, h.1⟩
  obtain ⟨index, hindex⟩ := List.mem_iff_getElem?.mp hunit
  have hone := h.2 (unit, index) (List.mem_zipIdx_iff_getElem?.mpr hindex)
  dsimp only at hone
  rw [isKeyUnit_iff]
  split_ifs at hone with hhyphen
  · have heq : unit = 45 := of_decide_eq_true hone
    rw [heq]
    decide
  · unfold isHexDigit at hone
    simp only [Bool.or_eq_true, Bool.and_eq_true, decide_eq_true_eq, isDigit_iff] at hone
    have hcases : ((48 ≤ unit ∧ unit ≤ 57) ∨ 97 ≤ unit ∧ unit ≤ 102) ∨ 65 ≤ unit ∧ unit ≤ 70 := hone
    show _ ∧ unit ≠ 46
    omega

theorem Plain.append {left right : Text} (hleft : Plain left) (hright : Plain right) : Plain (left ++ right) := by
  intro unit hunit
  exact (List.mem_append.mp hunit).elim (hleft unit) (hright unit)

theorem Plain.slash {text : Text} (h : Plain text) : Plain ('/'.toNat :: text) :=
  List.forall_mem_cons.mpr ⟨by decide, h⟩

theorem folder_spec (purpose : StoragePurpose) : Plain purpose.folder ∧ purpose.folder.length ≤ 17 ∧
    purpose.folder.head?.any isAlnum = true := by
  unfold Plain
  cases purpose <;> decide

/-- A text of the form of an upload's key is accepted exactly if its dots are apart. -/
theorem uploadKeyText_form {purpose : Option StoragePurpose} {uploadedBy : Option Text} {id storedName : Text}
    (howner : ∀ owner ∈ uploadedBy, isUuid owner = true) (hid : isUuid id = true)
    (hunits : ∀ unit ∈ storedName, isNameUnit unit = true) (hlength : storedName.length ≤ 185) :
    trimText (uploadKeyText purpose uploadedBy id storedName) = uploadKeyText purpose uploadedBy id storedName ∧
      (KeyForm (uploadKeyText purpose uploadedBy id storedName) ↔ Apart storedName) := by
  obtain ⟨hidPlain, hidLength⟩ := plain_of_isUuid hid
  obtain ⟨hfolder, hfolderLength, hfirst⟩ := folder_spec (purpose.getD .attachment)
  have howns : Plain (if trimText (uploadedBy.getD []) = [] then
      codeUnits "system" else trimText (uploadedBy.getD [])) ∧
      (if trimText (uploadedBy.getD []) = [] then
        codeUnits "system" else trimText (uploadedBy.getD [])).length ≤ 36 := by
    cases uploadedBy with
    | none =>
        rw [Option.getD_none, if_pos (by rfl)]
        unfold Plain
        decide
    | some owner =>
        obtain ⟨hplain, hownerLength⟩ := plain_of_isUuid (howner owner rfl)
        have htrim : trimText owner = owner :=
          Events.trimText_of_inked fun unit hunit => not_space_of_isKeyUnit (hplain unit hunit).1
        rw [Option.getD_some, htrim, if_neg (List.ne_nil_of_length_pos (by omega))]
        exact ⟨hplain, hownerLength.le⟩
  unfold uploadKeyText
  dsimp only
  generalize (if trimText (uploadedBy.getD []) = [] then codeUnits "system" else trimText (uploadedBy.getD [])) = owner
    at howns
  generalize (purpose.getD .attachment).folder = folder at hfolder hfolderLength hfirst
  obtain ⟨hownerPlain, hownerLength⟩ := howns
  have hplain : Plain (folder ++ '/'.toNat :: owner ++ '/'.toNat :: id ++ ['/'.toNat]) :=
    ((hfolder.append hownerPlain.slash).append hidPlain.slash).append (show Plain ['/'.toNat] from Plain.slash nofun)
  have hkey : folder ++ '/'.toNat :: owner ++ '/'.toNat :: id ++ '/'.toNat :: storedName =
      folder ++ '/'.toNat :: owner ++ '/'.toNat :: id ++ ['/'.toNat] ++ storedName := by
    rw [List.append_assoc _ ['/'.toNat], List.singleton_append]
  have hkeyUnits : ∀ unit ∈ folder ++ '/'.toNat :: owner ++ '/'.toNat :: id ++ '/'.toNat :: storedName,
      isKeyUnit unit = true := by
    rw [hkey]
    intro unit hunit
    rcases List.mem_append.mp hunit with hunit | hunit
    · exact (hplain unit hunit).1
    · exact isKeyUnit_of_isNameUnit (hunits unit hunit)
  have hdots : Apart (folder ++ '/'.toNat :: owner ++ '/'.toNat :: id ++ '/'.toNat :: storedName) ↔
      Apart storedName := by
    rw [hkey, apart_append]
    refine ⟨fun h => h.2.1, fun h => ⟨apart_of_not_mem fun hmem => (hplain _ hmem).2 rfl, h, fun hboth => ?_⟩⟩
    rw [List.getLast?_concat] at hboth
    exact absurd hboth.1 (by decide)
  refine ⟨Events.trimText_of_inked fun unit hunit => not_space_of_isKeyUnit (hkeyUnits unit hunit), ?_⟩
  rw [← hdots, apart_iff]
  refine ⟨KeyForm.relative, fun hrelative => ⟨?_, hrelative⟩⟩
  cases folder with
  | nil => cases hfirst
  | cons first folder =>
      rw [List.cons_append, List.cons_append, List.cons_append] at hkeyUnits ⊢
      refine matchesKeyPattern_cons.mpr ⟨hfirst, (List.forall_mem_cons.mp hkeyUnits).2, ?_⟩
      simp only [List.length_append, List.length_cons] at hfolderLength ⊢
      omega

theorem validateUploadedFile_eq_ok {platform : UploadPlatform} {input : UploadedFileInput} {maxBytes : Option ℕ}
    {purpose : Option StoragePurpose} {validated : ValidatedUpload}
    (h : validateUploadedFile platform input maxBytes purpose = .ok validated) :
    assertSafeFilename input.originalname = .ok validated.originalName ∧
      validated.storedName = sanitizeStoredFilename validated.originalName validated.extension := by
  unfold validateUploadedFile at h
  dsimp only at h
  split_ifs at h with hempty hsize hlarge
  obtain ⟨originalName, hname, h⟩ := except_bind_eq_ok.mp h
  split at h
  · cases h
  · split_ifs at h
    obtain rfl := Except.ok.inj h
    exact ⟨hname, rfl⟩

/--
The key of a validated upload is accepted, leads strictly inside the root and ends in the extension, exactly if the
stem of its name is not cut behind a dot.
-/
theorem upload_key_usable_iff {platform : UploadPlatform} {input : UploadedFileInput} {maxBytes : Option ℕ}
    {purpose : Option StoragePurpose} {validated : ValidatedUpload}
    (h : validateUploadedFile platform input maxBytes purpose = .ok validated) {uploadedBy : Option Text}
    (howner : ∀ owner ∈ uploadedBy, isUuid owner = true) {id : Text} (hid : isUuid id = true) (root : Path) :
    (∃ key, uploadKey purpose uploadedBy id validated.storedName = .ok key ∧
        (∃ path, resolveStoragePath root key = .ok path ∧ root <+: path ∧ path ≠ root) ∧
        '.'.toNat :: validated.extension.text <:+ key) ↔
      (cleanedStem (trimText input.originalname))[179]? ≠ some '.'.toNat := by
  obtain ⟨hname, hstored⟩ := validateUploadedFile_eq_ok h
  obtain ⟨hapart, hdot⟩ := assertSafeFilename_eq_ok hname
  have htrimmed : validated.originalName = trimText input.originalname := by
    unfold assertSafeFilename at hname
    dsimp only at hname
    split_ifs at hname
    exact (Except.ok.inj hname).symm
  obtain ⟨hcut, hunits, hlength⟩ := sanitizeStoredFilename_spec hapart hdot validated.extension
  rw [← hstored] at hcut hunits hlength
  have hsuffix : '.'.toNat :: validated.extension.text <:+ uploadKeyText purpose uploadedBy id
      validated.storedName := by
    rw [hstored]
    exact (List.suffix_append _ _).trans ((List.suffix_cons _ _).trans (List.suffix_append _ _))
  obtain ⟨htrim, hform⟩ := @uploadKeyText_form purpose _ _ _ howner hid hunits hlength
  rw [← htrimmed, ← hcut, ← hform]
  unfold uploadKey
  constructor
  · rintro ⟨key, hkey, -⟩
    have haccepted := (assertStorageKey_eq_ok.mp hkey).1
    rwa [htrim] at haccepted
  · intro hkey
    exact ⟨_, hkey.assertStorageKey_eq, hkey.resolveStoragePath_eq root, hsuffix⟩

def asciiUploads : UploadPlatform where
  toLowerCase text := text.map fun unit => if 65 ≤ unit ∧ unit ≤ 90 then unit + 32 else unit
  decode := id

def sampleUuid : Text := codeUnits "3f2b8c1e-9d4a-4c7b-8e21-5a6f0b9c1d2e"

def textUpload (originalname : Text) : UploadedFileInput where
  originalname
  size := 2
  buffer := codeUnits "hi"

theorem notes_key_usable : ∃ validated,
    validateUploadedFile asciiUploads (textUpload (codeUnits "my notes.txt")) none none = .ok validated ∧
      ∃ key, uploadKey none (some sampleUuid) sampleUuid validated.storedName = .ok key ∧
        (∃ path, resolveStoragePath [codeUnits "srv"] key = .ok path ∧ [codeUnits "srv"] <+: path ∧
          path ≠ [codeUnits "srv"]) ∧ '.'.toNat :: validated.extension.text <:+ key := by
  have hvalid : (validateUploadedFile asciiUploads (textUpload (codeUnits "my notes.txt")) none none).isOk = true := by
    decide
  have huuid : isUuid sampleUuid = true := by decide
  cases h : validateUploadedFile asciiUploads (textUpload (codeUnits "my notes.txt")) none none with
  | error error =>
      rw [h] at hvalid
      cases hvalid
  | ok validated =>
      refine ⟨validated, rfl, (upload_key_usable_iff h ?_ huuid _).mpr (by decide)⟩
      rintro owner ⟨⟩
      exact huuid

/-- A name whose stem is cut behind a dot. -/
def longName : Text := List.replicate 179 'a'.toNat ++ codeUnits ".b.txt"

theorem cut_behind_dot : ∃ validated, validateUploadedFile asciiUploads (textUpload longName) none none =
    .ok validated ∧
    ¬∃ key, uploadKey none (some sampleUuid) sampleUuid validated.storedName = .ok key := by
  have hvalid : (validateUploadedFile asciiUploads (textUpload longName) none none).isOk = true := by decide +kernel
  have hkey : ((validateUploadedFile asciiUploads (textUpload longName) none none).toOption.any fun validated =>
      (uploadKey none (some sampleUuid) sampleUuid validated.storedName).isOk) = false := by decide +kernel
  cases h : validateUploadedFile asciiUploads (textUpload longName) none none with
  | error error =>
      rw [h] at hvalid
      cases hvalid
  | ok validated =>
      refine ⟨validated, rfl, ?_⟩
      rintro ⟨key, hok⟩
      rw [h] at hkey
      have hfalse : (uploadKey none (some sampleUuid) sampleUuid validated.storedName).isOk = false := hkey
      rw [hok] at hfalse
      cases hfalse

end DealFlow360.Storage

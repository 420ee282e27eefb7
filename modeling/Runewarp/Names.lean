import Runewarp.Client.AddressWorker
import Runewarp.Lib.Hex
import Runewarp.Server.Authorization
import Mathlib.Algebra.GroupWithZero.Nat
import Mathlib.Data.List.DropRight

/-!
# Names as they are written

What turns the strings of a configuration or of Control into Public hostnames, Server
addresses, Client identities and Tunnel IDs, with the errors and their texts.

Whether a string is an IP address for the standard library is the parameter `isIpAddr`:
nothing here depends on what it answers.  Strings are lists of Unicode scalars; `utf8Length`
is their length in bytes where the source asks for it.
-/

namespace Runewarp

/-- `str::len`. -/
def utf8Length (cs : List Char) : Nat := (cs.map Char.utf8Size).sum

/-- `is_ascii`. -/
def isAscii (c : Char) : Bool := decide (c.toNat < 128)

/-! ## Hostnames -/

inductive PublicHostnameError where
  | empty
  | tooLong
  | emptyLabel
  | labelTooLong
  | invalidCharacter
  | leadingOrTrailingHyphen
  | wildcard
  | ipLiteral
  | rawUnicode
deriving DecidableEq

def PublicHostnameError.display : PublicHostnameError → String
  | .empty => "hostname must not be empty"
  | .tooLong => "hostname must be 253 bytes or shorter"
  | .emptyLabel => "hostname labels must not be empty"
  | .labelTooLong => "hostname labels must be 63 bytes or shorter"
  | .invalidCharacter =>
    "hostname must contain only lowercase ASCII letters, digits, dots, and hyphens"
  | .leadingOrTrailingHyphen => "hostname labels must not start or end with a hyphen"
  | .wildcard => "wildcard hostnames are not supported"
  | .ipLiteral => "IP literals are not supported"
  | .rawUnicode => "raw Unicode hostnames are not supported"

def normalizePublicHostname (hostname : String) : List Char :=
  (hostname.toList.rdropWhile (· = '.')).map Char.toLower

/-- One label in `validate_public_hostname`. -/
def validateLabel (label : List Char) : Except PublicHostnameError Unit :=
  if label = [] then .error .emptyLabel
  else if label.length > 63 then .error .labelTooLong
  else if label.head? = some '-' ∨ label.getLast? = some '-' then
    .error .leadingOrTrailingHyphen
  else if label.all (fun c => c.isLower || c.isDigit || c == '-') = false then
    .error .invalidCharacter
  else .ok ()

def validatePublicHostname (isIpAddr : String → Bool) (hostname : String) :
    Except PublicHostnameError String :=
  let normalized := normalizePublicHostname hostname
  if normalized = [] then .error .empty
  else if normalized.all isAscii = false then .error .rawUnicode
  else if '*' ∈ normalized then .error .wildcard
  else if isIpAddr (String.ofList normalized) then .error .ipLiteral
  else if normalized.length > 253 then .error .tooLong
  else do
    (normalized.splitOn '.').forM validateLabel
    .ok (String.ofList normalized)

def PublicHostname.tryFrom (isIpAddr : String → Bool) (value : String) :
    Except PublicHostnameError PublicHostname :=
  (validatePublicHostname isIpAddr value).map PublicHostname.mk

def ServerHostname.tryFrom (isIpAddr : String → Bool) (value : String) :
    Except PublicHostnameError ServerHostname :=
  (validatePublicHostname isIpAddr value).map ServerHostname.mk

/-! ### The grammar of hostnames -/

theorem toLower_eq_self {c : Char} (h : ¬(65 ≤ c.toNat ∧ c.toNat ≤ 90)) : c.toLower = c :=
  dif_neg h

theorem toNat_toLower {c : Char} (h : 65 ≤ c.toNat ∧ c.toNat ≤ 90) :
    c.toLower.toNat = c.toNat + 32 := by
  have hl : c.toLower.val = c.val + 32 := congrArg Char.val (dif_pos h)
  have hv : c.val.toNat = c.toNat := rfl
  rw [← Char.toNat_val, hl, UInt32.toNat_add, hv]
  change (c.toNat + 32) % 2 ^ 32 = _
  omega

theorem toLower_eq_dot {c : Char} : c.toLower = '.' ↔ c = '.' := by
  by_cases h : 65 ≤ c.toNat ∧ c.toNat ≤ 90
  · have hn := toNat_toLower h
    constructor
    · intro heq
      rw [heq] at hn
      have : '.'.toNat = 46 := rfl
      omega
    · rintro rfl
      exact absurd h (by decide)
  · rw [toLower_eq_self h]

theorem toLower_toLower (c : Char) : c.toLower.toLower = c.toLower := by
  by_cases h : 65 ≤ c.toNat ∧ c.toNat ≤ 90
  · have hn := toNat_toLower h
    exact toLower_eq_self (by omega)
  · rw [toLower_eq_self h, toLower_eq_self h]

/-- A label, with its length in bytes. -/
structure IsLabel (label : List Char) : Prop where
  length : 1 ≤ utf8Length label ∧ utf8Length label ≤ 63
  chars : ∀ c ∈ label, c.isLower ∨ c.isDigit ∨ c = '-'
  first : label.head? ≠ some '-'
  last : label.getLast? ≠ some '-'

/-- Labels that are separated by dots. -/
structure IsHostname (isIpAddr : String → Bool) (cs : List Char) : Prop where
  length : utf8Length cs ≤ 253
  notIp : isIpAddr (String.ofList cs) = false
  labels : ∃ labels, labels ≠ [] ∧ (∀ label ∈ labels, IsLabel label) ∧
    cs = ['.'].intercalate labels

/-- The two are equal up to the case of ASCII letters and to dots at the end. -/
def SameHostname (a b : String) : Prop :=
  ∃ cs ds m n, a.toList = cs ++ List.replicate m '.' ∧ b.toList = ds ++ List.replicate n '.' ∧
    cs.map Char.toLower = ds.map Char.toLower

section

variable {c : Char} {cs : List Char} {isIpAddr : String → Bool} {hostname other r : String}

theorem utf8Length_eq (h : ∀ c ∈ cs, isAscii c = true) : utf8Length cs = cs.length := by
  induction cs with
  | nil => rfl
  | cons c cs ih =>
    have hc : c.toNat < 128 := of_decide_eq_true (h c (.head _))
    have hs : c.utf8Size = 1 := Char.utf8Size_eq_one_iff.mpr (Nat.le_of_lt_succ hc)
    have hi : utf8Length cs = cs.length := ih fun d hd => h d (.tail _ hd)
    rw [List.length_cons, ← hi, utf8Length, List.map_cons, List.sum_cons, hs, Nat.add_comm]
    rfl

theorem isAscii_of_label (h : c.isLower ∨ c.isDigit ∨ c = '-') :
    isAscii c = true ∧ c ≠ '.' ∧ c ≠ '*' := by
  refine ⟨decide_eq_true ?_, ?_, ?_⟩
  · rcases h with h | h | rfl
    · have hz : c.toNat ≤ 122 := of_decide_eq_true (Bool.and_eq_true_iff.mp h).2
      omega
    · have hz : c.toNat ≤ 57 := of_decide_eq_true (Bool.and_eq_true_iff.mp h).2
      omega
    · decide
  · rintro rfl
    exact absurd h (by decide)
  · rintro rfl
    exact absurd h (by decide)

theorem validateLabel_eq_ok {label : List Char} :
    validateLabel label = .ok () ↔ IsLabel label := by
  have hl : (∀ c ∈ label, c.isLower ∨ c.isDigit ∨ c = '-') → utf8Length label = label.length :=
    fun h => utf8Length_eq fun c hc => (isAscii_of_label (h c hc)).1
  have hall : label.all (fun c => c.isLower || c.isDigit || c == '-') = true ↔
      ∀ c ∈ label, c.isLower ∨ c.isDigit ∨ c = '-' := by simp [or_assoc]
  unfold validateLabel
  constructor
  · intro h
    split_ifs at h with hn hlen hh ha
    have hc := hall.mp (Bool.not_eq_false _ ▸ ha)
    rw [not_or] at hh
    refine ⟨?_, hc, hh.1, hh.2⟩
    rw [hl hc]
    exact ⟨List.length_pos_iff.mpr hn, Nat.le_of_not_lt hlen⟩
  · rintro ⟨hlen, hc, hf, hla⟩
    rw [hl hc] at hlen
    rw [if_neg (List.length_pos_iff.mp hlen.1), if_neg (Nat.not_lt.mpr hlen.2),
      if_neg (not_or.mpr ⟨hf, hla⟩), hall.mpr hc]
    rfl

theorem forM_validateLabel {labels : List (List Char)} :
    labels.forM validateLabel = .ok () ↔ ∀ label ∈ labels, IsLabel label := by
  induction labels with
  | nil => simp [List.forM, pure, Except.pure]
  | cons label labels ih =>
    rw [List.forall_mem_cons, ← ih, ← validateLabel_eq_ok, List.forM]
    cases validateLabel label <;> simp [bind, Except.bind]

theorem mem_intercalate {labels : List (List Char)} (h : c ∈ ['.'].intercalate labels) :
    c = '.' ∨ ∃ label ∈ labels, c ∈ label := by
  induction labels with
  | nil => cases h
  | cons label labels ih =>
    cases labels with
    | nil => exact .inr ⟨label, List.mem_singleton_self _, by simpa [List.intercalate] using h⟩
    | cons next rest =>
      rw [List.intercalate_cons_cons, List.mem_append, List.mem_append] at h
      rcases h with (h | h) | h
      · exact .inr ⟨label, .head _, h⟩
      · exact .inl (List.mem_singleton.mp h)
      · exact (ih h).imp_right fun ⟨l, hl, hc⟩ => ⟨l, .tail _ hl, hc⟩

theorem validatePublicHostname_eq_ok :
    validatePublicHostname isIpAddr hostname = .ok r ↔
      IsHostname isIpAddr (normalizePublicHostname hostname) ∧
        r = String.ofList (normalizePublicHostname hostname) := by
  unfold validatePublicHostname
  generalize normalizePublicHostname hostname = cs
  dsimp only
  constructor
  · intro h
    split_ifs at h with hn ha hw hi hlen
    cases hf : (cs.splitOn '.').forM validateLabel with
    | error e =>
      rw [hf] at h
      cases h
    | ok u =>
      rw [hf] at h
      cases h
      refine ⟨⟨?_, Bool.eq_false_iff.mpr hi, cs.splitOn '.', List.splitOn_ne_nil _ _,
        forM_validateLabel.mp hf, (List.intercalate_splitOn _).symm⟩, rfl⟩
      rw [utf8Length_eq (by simpa using ha)]
      exact Nat.le_of_not_lt hlen
  · rintro ⟨⟨hlen, hi, labels, hn, hl, rfl⟩, rfl⟩
    have hs := List.splitOn_intercalate '.' (fun label hm hd =>
      (isAscii_of_label ((hl label hm).chars '.' hd)).2.1 rfl) hn
    have hc : ∀ c ∈ ['.'].intercalate labels, isAscii c = true ∧ c ≠ '*' := by
      intro c hc
      rcases mem_intercalate hc with rfl | ⟨label, hm, hc⟩
      · decide
      · have ha := isAscii_of_label ((hl label hm).chars c hc)
        exact ⟨ha.1, ha.2.2⟩
    rw [utf8Length_eq fun c hm => (hc c hm).1] at hlen
    have hne : ['.'].intercalate labels ≠ [] := by
      intro he
      rw [he] at hs
      subst hs
      exact absurd (hl [] (.head _)).length.1 (by decide)
    rw [if_neg hne, if_neg, if_neg, hi, if_neg Bool.false_ne_true, if_neg (Nat.not_lt.mpr hlen),
      hs, forM_validateLabel.mpr hl]
    · rfl
    · exact fun hm => (hc _ hm).2 rfl
    · simpa using fun c hm => (hc c hm).1

theorem rdropWhile_map_toLower :
    (cs.map Char.toLower).rdropWhile (· = '.') = (cs.rdropWhile (· = '.')).map Char.toLower := by
  have hp : (fun c => decide (c = '.')) ∘ Char.toLower = fun c => decide (c = '.') :=
    funext fun c => decide_eq_decide.mpr toLower_eq_dot
  rw [List.rdropWhile, ← List.map_reverse, List.dropWhile_map, hp, ← List.map_reverse]
  rfl

theorem normalize_normalize :
    normalizePublicHostname (String.ofList (normalizePublicHostname hostname)) =
      normalizePublicHostname hostname := by
  have hid : Char.toLower ∘ Char.toLower = Char.toLower := funext toLower_toLower
  rw [normalizePublicHostname, String.toList_ofList, normalizePublicHostname,
    rdropWhile_map_toLower, List.rdropWhile_idempotent, List.map_map, hid]

theorem normalize_append_dots {n : Nat} (h : hostname.toList = cs ++ List.replicate n '.') :
    normalizePublicHostname hostname = (cs.map Char.toLower).rdropWhile (· = '.') := by
  rw [normalizePublicHostname, h, rdropWhile_map_toLower, List.rdropWhile, List.reverse_append,
    List.dropWhile_append_of_pos (by simp)]
  rfl

theorem exists_append_dots (hostname : String) : ∃ n, hostname.toList =
    hostname.toList.rdropWhile (· = '.') ++ List.replicate n '.' := by
  refine ⟨(hostname.toList.rtakeWhile (· = '.')).length, ?_⟩
  rw [← List.eq_replicate_of_mem fun c hc => by simpa using List.mem_rtakeWhile_imp hc,
    List.rdropWhile_append_rtakeWhile]

theorem normalize_eq_iff : normalizePublicHostname hostname = normalizePublicHostname other ↔
    SameHostname hostname other := by
  constructor
  · intro h
    obtain ⟨m, hm⟩ := exists_append_dots hostname
    obtain ⟨n, hn⟩ := exists_append_dots other
    exact ⟨_, _, m, n, hm, hn, h⟩
  · rintro ⟨cs, ds, m, n, hm, hn, h⟩
    rw [normalize_append_dots hm, normalize_append_dots hn, h]

end

/-- Exactly the hostnames of the grammar are accepted.  The result is the text without
dots at its end and in lower case, is accepted as it is, and tells apart what differs in more
than these. -/
theorem public_hostname_grammar (isIpAddr : String → Bool) (hostname : String) :
    ((∃ r, validatePublicHostname isIpAddr hostname = .ok r) ↔
      IsHostname isIpAddr (normalizePublicHostname hostname)) ∧
    ∀ r, validatePublicHostname isIpAddr hostname = .ok r →
      r = String.ofList (normalizePublicHostname hostname) ∧
      validatePublicHostname isIpAddr r = .ok r ∧
      ∀ other r', validatePublicHostname isIpAddr other = .ok r' →
        (r = r' ↔ SameHostname hostname other) := by
  refine ⟨⟨?_, fun h => ⟨_, validatePublicHostname_eq_ok.mpr ⟨h, rfl⟩⟩⟩, fun r hr => ?_⟩
  · rintro ⟨r, hr⟩
    exact (validatePublicHostname_eq_ok.mp hr).1
  · obtain ⟨hh, rfl⟩ := validatePublicHostname_eq_ok.mp hr
    refine ⟨rfl, ?_, fun other r' hr' => ?_⟩
    · rw [validatePublicHostname_eq_ok, normalize_normalize]
      exact ⟨hh, rfl⟩
    · obtain ⟨-, rfl⟩ := validatePublicHostname_eq_ok.mp hr'
      rw [String.ofList_inj, normalize_eq_iff]

/-! ## Server addresses -/

inductive ServerAddressError where
  | missingHostname
  | invalidPort
  | invalidHostname (error : PublicHostnameError)
deriving DecidableEq

def ServerAddressError.display : ServerAddressError → String
  | .missingHostname => "hostname must not be empty"
  | .invalidPort => "port must be a valid u16"
  | .invalidHostname error => error.display

/-- `rsplit_once`. -/
def rsplitOnce (separator : Char) (cs : List Char) : Option (List Char × List Char) :=
  match cs.reverse.dropWhile (· ≠ separator) with
  | [] => none
  | _ :: front => some (front.reverse, (cs.reverse.takeWhile (· ≠ separator)).reverse)

/-- `parse::<u16>`, which takes a plus sign before the digits. -/
def parseU16 (cs : List Char) : Option UInt16 :=
  let ds := if cs.head? = some '+' then cs.tail else cs
  if ds = [] ∨ ds.all Char.isDigit = false then none
  else
    let n := ds.foldl (fun n c => n * 10 + (c.toNat - 48)) 0
    if n < 65536 then some (UInt16.ofNat n) else none

def Client.ServerAddress.parse (isIpAddr : String → Bool) (value : String) :
    Except ServerAddressError ServerAddress :=
  let ho : Except ServerAddressError (List Char × UInt16) :=
    match rsplitOnce ':' value.toList with
    | some (hostname, rawPort) =>
      match parseU16 rawPort with
      | some port => .ok (hostname, port)
      | none => .error .invalidPort
    | none => .ok (value.toList, 443)
  match ho with
  | .error error => .error error
  | .ok (rawHostname, port) =>
    if rawHostname = [] then .error .missingHostname
    else
      match ServerHostname.tryFrom isIpAddr (String.ofList rawHostname) with
      | .error error => .error (.invalidHostname error)
      | .ok hostname => .ok ⟨hostname, port⟩

/-- `host:port`. -/
def Client.ServerAddress.display (address : ServerAddress) : String :=
  address.hostname.asStr ++ ":" ++ toString address.port.toNat

theorem rsplitOnce_append_cons {separator : Char} {front back : List Char}
    (hb : separator ∉ back) :
    rsplitOnce separator (front ++ separator :: back) = some (front, back) := by
  have hne : ∀ c ∈ back.reverse, decide (c ≠ separator) = true := by
    intro c hc
    have hm : c ∈ back := List.mem_reverse.mp hc
    exact decide_eq_true fun heq => hb (heq ▸ hm)
  have hr : (front ++ separator :: back).reverse =
      back.reverse ++ separator :: front.reverse := by simp
  unfold rsplitOnce
  rw [hr, List.dropWhile_append_of_pos hne, List.takeWhile_append_of_pos hne]
  simp

theorem Client.ServerAddress.rsplitOnce_display (address : ServerAddress) :
    rsplitOnce ':' address.display.toList =
      some (address.hostname.asStr.toList, Nat.toDigits 10 address.port.toNat) := by
  have hd : ':' ∉ Nat.toDigits 10 address.port.toNat := by
    intro hm
    have hdi := Nat.isDigit_of_mem_toDigits (by omega) (by omega) hm
    exact absurd hdi (by decide)
  have ht : address.display.toList =
      address.hostname.asStr.toList ++ ':' :: Nat.toDigits 10 address.port.toNat := by
    simp [display, Nat.toString_eq_repr]
  rw [ht, rsplitOnce_append_cons hd]

/-- The text of an address has its port after the last colon, so it is the text of no
other address. -/
theorem Client.ServerAddress.display_injective : Function.Injective ServerAddress.display := by
  intro a b h
  have hp := (rsplitOnce_display a).symm.trans (h ▸ rsplitOnce_display b)
  simp only [Option.some.injEq, Prod.mk.injEq] at hp
  obtain ⟨hh, hpo⟩ := hp
  have hpo : a.port.toNat = b.port.toNat := by
    rw [← Nat.ofDigitChars_toDigits (b := 10) (n := a.port.toNat) (by omega) (by omega), hpo,
      Nat.ofDigitChars_toDigits (by omega) (by omega)]
  obtain ⟨⟨hostname⟩, port⟩ := a
  obtain ⟨⟨ho'⟩, port'⟩ := b
  obtain rfl : hostname = ho' := String.toList_inj.mp hh
  obtain rfl : port = port' := UInt16.toNat_inj.mp hpo
  rfl

theorem parseU16_toDigits (port : UInt16) :
    parseU16 (Nat.toDigits 10 port.toNat) = some port := by
  have hdi : ∀ c ∈ Nat.toDigits 10 port.toNat, c.isDigit = true := fun c hc =>
    Nat.isDigit_of_mem_toDigits (by omega) (by omega) hc
  have hh : (Nat.toDigits 10 port.toNat).head? ≠ some '+' := fun h =>
    absurd (hdi '+' (List.mem_of_mem_head? h)) (by decide)
  have hf : (Nat.toDigits 10 port.toNat).foldl (fun n c => n * 10 + (c.toNat - 48)) 0 =
      port.toNat := by
    simp only [Nat.mul_comm _ 10]
    exact Nat.ofDigitChars_toDigits (by omega) (by omega)
  have hl : port.toNat < 65536 := port.toNat_lt
  simpa [parseU16, hh, hf, hl, Nat.toDigits_ne_nil] using hdi

/-- The hostname of an address that was parsed is accepted as it is. -/
theorem Client.ServerAddress.tryFrom_of_parse {isIpAddr : String → Bool} {value : String}
    {address : ServerAddress} (h : parse isIpAddr value = .ok address) :
    ServerHostname.tryFrom isIpAddr address.hostname.asStr = .ok address.hostname := by
  simp only [parse] at h
  split at h
  · cases h
  · split at h
    · cases h
    · split at h
      · cases h
      · next hostname ht =>
        cases h
        obtain ⟨r, hr, rfl⟩ := map_ok ht
        obtain ⟨hi, rfl⟩ := validatePublicHostname_eq_ok.mp hr
        rw [← normalize_normalize] at hi
        rw [ServerHostname.tryFrom, validatePublicHostname_eq_ok.mpr ⟨hi, rfl⟩,
          normalize_normalize]
        rfl

/-! ## Client identities -/

inductive ParseClientIdentityError where
  | wrongLength
  | invalidHex
deriving DecidableEq

def ParseClientIdentityError.display : ParseClientIdentityError → String
  | .wrongLength => "client identity must be 64 lowercase hex characters"
  | .invalidHex => "client identity must use lowercase hex without separators"

/-- The bytes of pairs of lower-case digits. -/
def hexPairs : List Char → Option (List UInt8)
  | [] => some []
  | [_] => none
  | c :: d :: rest =>
    match Hex.isLower c && Hex.isLower d, Hex.digitValue c, Hex.digitValue d with
    | true, some hi, some low =>
      (hexPairs rest).map fun bytes => UInt8.ofNat (hi * 16 + low) :: bytes
    | _, _, _ => none

def ClientIdentity.fromStr (value : String) : Except ParseClientIdentityError ClientIdentity :=
  if utf8Length value.toList ≠ 64 then .error .wrongLength
  else
    match hexPairs value.toList with
    | none => .error .invalidHex
    | some bytes =>
      -- 64 bytes of digits are 32 pairs.
      if h : bytes.length = 32 then .ok ⟨bytes, h⟩ else .error .invalidHex

theorem hexPairs_eq_some {cs : List Char} {bytes : List UInt8} : hexPairs cs = some bytes ↔
    cs = bytes.flatMap fun b => [hexDigit (b.toNat / 16), hexDigit b.toNat] := by
  constructor
  · intro h
    fun_induction hexPairs cs generalizing bytes with
    | case1 =>
      cases h
      rfl
    | case2 => cases h
    | case3 c d rest hi low hd hc hlo ih =>
      obtain ⟨bytes', hr, rfl⟩ := Option.map_eq_some_iff.mp h
      obtain ⟨hlc, hld⟩ := Bool.and_eq_true_iff.mp hlo
      obtain ⟨m, hm, rfl⟩ := Hex.exists_digitChar hlc
      obtain ⟨n, hn, rfl⟩ := Hex.exists_digitChar hld
      obtain rfl : m = hi := Option.some.inj ((Hex.digitValue_digitChar hm).symm.trans hc)
      obtain rfl : n = low := Option.some.inj ((Hex.digitValue_digitChar hn).symm.trans hd)
      have hb : (UInt8.ofNat (m * 16 + n)).toNat = m * 16 + n := by
        rw [UInt8.toNat_ofNat']
        omega
      rw [List.flatMap_cons, ← ih hr, hb, hexDigit, hexDigit, Nat.mul_add_mod',
        Nat.mod_eq_of_lt hn, show (m * 16 + n) / 16 % 16 = m by omega]
      rfl
    | case4 => cases h
  · rintro rfl
    induction bytes with
    | nil => rfl
    | cons b bytes ih =>
      have hb := b.toNat_lt
      have hl : ∀ n, Hex.isLower (hexDigit n) = true := fun n =>
        Hex.isLower_digitChar (Nat.mod_lt n (by decide))
      have hd : ∀ n, Hex.digitValue (hexDigit n) = some (n % 16) := fun n =>
        Hex.digitValue_digitChar (Nat.mod_lt n (by decide))
      have hv : b.toNat / 16 % 16 * 16 + b.toNat % 16 = b.toNat := by omega
      simp [hexPairs, hl, hd, ih, hv]

theorem ClientIdentity.fromStr_eq_ok {value : String} {identity : ClientIdentity} :
    fromStr value = .ok identity ↔ identity.display = value := by
  have hd : identity.display = value ↔ hexPairs value.toList = some identity.bytes := by
    rw [hexPairs_eq_some, ← String.toList_inj, display, String.toList_ofList, eq_comm]
  rw [hd, fromStr]
  constructor
  · intro h
    split at h
    · cases h
    · split at h
      · cases h
      · next hp =>
        split at h
        · cases h
          exact hp
        · cases h
  · intro hp
    have hl := identity.length_eq
    have hu : utf8Length value.toList = 64 := by
      rw [hexPairs_eq_some.mp hp, utf8Length_eq]
      · simp [hl]
      · intro c hc
        have ha : ∀ n < 16, isAscii (Nat.digitChar n) = true := by decide
        obtain ⟨b, -, hc⟩ := List.mem_flatMap.mp hc
        rcases List.mem_pair.mp hc with rfl | rfl <;> exact ha _ (Nat.mod_lt _ (by decide))
    simp [hu, hp, hl]

/-- Client identities and Server addresses are read back from their texts, and a text that is
read as an identity is the text of it. -/
theorem names_read_back :
    (∀ value identity, ClientIdentity.fromStr value = .ok identity ↔ identity.display = value) ∧
    ∀ isIpAddr value address, Client.ServerAddress.parse isIpAddr value = .ok address →
      Client.ServerAddress.parse isIpAddr address.display = .ok address := by
  refine ⟨fun _ _ => ClientIdentity.fromStr_eq_ok, fun isIpAddr value address h => ?_⟩
  have ht := Client.ServerAddress.tryFrom_of_parse h
  have hn : address.hostname.asStr.toList ≠ [] := by
    intro he
    rw [String.toList_eq_nil_iff.mp he] at ht
    cases ht
  simp [Client.ServerAddress.parse, Client.ServerAddress.rsplitOnce_display, parseU16_toDigits,
    hn, ht]

/-! ## Tunnel IDs -/

def opaqueControlTokenMaxChars : Nat := 128

inductive OpaqueControlTokenError where
  | empty
  | tooLong (len : Nat)
  | forbiddenCharacter
deriving DecidableEq

def OpaqueControlTokenError.display : OpaqueControlTokenError → String
  | .empty => "opaque Control token was empty"
  | .tooLong len => "opaque Control token length " ++ toString len ++ " exceeds maximum of "
      ++ toString opaqueControlTokenMaxChars
  | .forbiddenCharacter =>
    "opaque Control token contains ASCII whitespace or control characters"

/-- `is_ascii_whitespace() || is_ascii_control()`. -/
def isForbidden (c : Char) : Bool := decide (c.toNat ≤ 32) || decide (c.toNat = 127)

def validateOpaqueControlToken (value : String) : Except OpaqueControlTokenError Unit :=
  if value.toList = [] then .error .empty
  else if value.toList.length > opaqueControlTokenMaxChars then
    .error (.tooLong value.toList.length)
  else if value.toList.any isForbidden then .error .forbiddenCharacter
  else .ok ()

def TunnelId.parse (value : String) : Except OpaqueControlTokenError TunnelId :=
  (validateOpaqueControlToken value).map fun _ => ⟨value⟩

end Runewarp

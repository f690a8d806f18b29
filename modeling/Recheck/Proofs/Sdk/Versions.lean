import Mathlib.Data.Set.Finite.Lemmas
import Mathlib.Data.String.Basic
import Recheck.Proofs.Sdk.Offers
/-!
# Versions of SDKs

The alias stands for the SDK whose key comes last as a text, which need not be the one of the newest version.  Keys of
versions are in the order of their components as texts (`key_lt_key_iff`).  Without zeros in front, that is the order of
the components as numbers but for one case: a component with fewer digits is less than one with more, whatever its first
digit is.  So the alias misses the newest version exactly where an older one has fewer digits at the first place at
which they differ, and yet comes later there as a text (`Outspells`).
-/
namespace Recheck.Sdk

/-! ## Numerals -/

/-- Decimal digits, at least one. -/
def Numeral (digits : List Char) : Prop := digits ≠ [] ∧ ∀ c ∈ digits, c.isDigit = true

instance : DecidablePred Numeral := fun digits =>
  decidable_of_iff (digits ≠ [] ∧ digits.all Char.isDigit = true) (by rw [Numeral, List.all_eq_true])

/-- The only numeral with a zero in front is zero. -/
def Unpadded (digits : List Char) : Prop := digits.head? = some '0' → digits = ['0']

instance : DecidablePred Unpadded := fun digits => inferInstanceAs (Decidable (digits.head? = some '0' → digits = ['0']))

def number (digits : List Char) : Nat := Nat.ofDigitChars 10 digits 0

section
variable {a b : List Char}

theorem lt_iff_toNat_lt {c d : Char} : c < d ↔ c.toNat < d.toNat := UInt32.lt_iff_toNat_lt

theorem digit_bounds {c : Char} (h : c.isDigit = true) : '0'.toNat ≤ c.toNat ∧ c.toNat ≤ '0'.toNat + 9 := by
  simp only [Char.isDigit, Bool.and_eq_true, decide_eq_true_eq, ge_iff_le, UInt32.le_iff_toNat_le] at h
  exact h

theorem ofDigitChars_lt_pow : ∀ {cs : List Char} (n : Nat), (∀ c ∈ cs, c.isDigit = true) →
    Nat.ofDigitChars 10 cs n < (n + 1) * 10 ^ cs.length
  | [], n, _ => by simp
  | c :: cs, n, h => by
    have hc := digit_bounds (h c List.mem_cons_self)
    have ih := ofDigitChars_lt_pow (10 * n + (c.toNat - '0'.toNat)) fun d hd => h d (List.mem_cons_of_mem _ hd)
    rw [Nat.ofDigitChars_cons]
    refine Nat.lt_of_lt_of_le ih ?_
    rw [List.length_cons, Nat.pow_succ', ← Nat.mul_assoc]
    exact Nat.mul_le_mul_right _ (by omega)

theorem mul_pow_le_ofDigitChars : ∀ (cs : List Char) (n : Nat), n * 10 ^ cs.length ≤ Nat.ofDigitChars 10 cs n
  | [], n => by simp
  | c :: cs, n => by
    have ih := mul_pow_le_ofDigitChars cs (10 * n + (c.toNat - '0'.toNat))
    rw [Nat.ofDigitChars_cons]
    refine Nat.le_trans ?_ ih
    rw [List.length_cons, Nat.pow_succ', ← Nat.mul_assoc]
    exact Nat.mul_le_mul_right _ (by omega)

/-- **More digits make a greater number**, unless there are zeros in front. -/
theorem number_lt_of_length (ha : Numeral a) (hb : Numeral b) (hu : Unpadded b) (h : a.length < b.length) :
    number a < number b := by
  have hlow : number a < 10 ^ a.length := by simpa [number] using ofDigitChars_lt_pow 0 ha.2
  cases b with
  | nil => exact absurd rfl hb.1
  | cons d b =>
    have hlead : '0'.toNat < d.toNat := by
      refine Nat.lt_of_le_of_ne (digit_bounds (hb.2 d List.mem_cons_self)).1 fun heq => ?_
      have hzero := hu (by rw [List.head?_cons, Char.toNat_inj.1 heq])
      rw [hzero, List.length_singleton, Nat.lt_one_iff] at h
      exact ha.1 (List.eq_nil_of_length_eq_zero h)
    have hhigh := mul_pow_le_ofDigitChars b (10 * 0 + (d.toNat - '0'.toNat))
    have hpow : 10 ^ a.length ≤ 10 ^ b.length := Nat.pow_le_pow_right (by decide) (Nat.lt_succ_iff.1 h)
    rw [number, number, Nat.ofDigitChars_cons]
    refine Nat.lt_of_lt_of_le hlow (Nat.le_trans hpow (Nat.le_trans ?_ hhigh))
    exact Nat.le_mul_of_pos_left _ (by omega)

/-- Numbers of equally many digits are in the order of their texts. -/
theorem ofDigitChars_lt_iff : ∀ {a b : List Char} (m n : Nat), a.length = b.length → (∀ c ∈ a, c.isDigit = true) →
    (∀ c ∈ b, c.isDigit = true) → (Nat.ofDigitChars 10 a m < Nat.ofDigitChars 10 b n ↔ m < n ∨ m = n ∧ a < b)
  | [], [], m, n, _, _, _ => by simp
  | c :: a, d :: b, m, n, hl, ha, hb => by
    have hc := digit_bounds (ha c List.mem_cons_self)
    have hd := digit_bounds (hb d List.mem_cons_self)
    rw [Nat.ofDigitChars_cons, Nat.ofDigitChars_cons, ofDigitChars_lt_iff _ _ (Nat.succ.inj hl)
      (fun x hx => ha x (List.mem_cons_of_mem _ hx)) (fun x hx => hb x (List.mem_cons_of_mem _ hx)),
      List.cons_lt_cons_iff, lt_iff_toNat_lt, ← Char.toNat_inj]
    by_cases hab : a < b
    · simp only [hab, and_true]
      omega
    · simp only [hab, and_false, or_false]
      omega

theorem number_lt_iff (hl : a.length = b.length) (ha : Numeral a) (hb : Numeral b) : number a < number b ↔ a < b := by
  rw [number, number, ofDigitChars_lt_iff 0 0 hl ha.2 hb.2]
  simp

end

/-! ## Texts of components -/

/-- The components with dots between them, as they follow after another component. -/
def dotted : List (List Char) → List Char
  | []      => []
  | p :: ps => '.' :: joinWith ['.'] (p :: ps)

theorem joinWith_cons (p : List Char) (ps : List (List Char)) : joinWith ['.'] (p :: ps) = p ++ dotted ps := by
  cases ps with
  | nil => exact (List.append_nil p).symm
  | cons q ps => exact List.append_assoc _ _ _

theorem dot_lt {c : Char} (h : c.isDigit = true) : '.' < c := by
  rw [lt_iff_toNat_lt]
  exact Nat.lt_of_lt_of_le (by decide) (digit_bounds h).1

/-- Which of two components comes first as a text decides, whatever follows. -/
theorem append_dotted_lt : ∀ {a b : List Char} (us vs : List (List Char)), (∀ c ∈ b, c.isDigit = true) → a < b →
    a ++ dotted us < b ++ dotted vs
  | [], [], us, vs, _, h => absurd h (List.lt_irrefl [])
  | [], d :: b, [], vs, _, _ => List.nil_lt_cons _ _
  | [], d :: b, u :: us, vs, hb, _ => List.cons_lt_cons_iff.2 (.inl (dot_lt (hb d List.mem_cons_self)))
  | c :: a, [], us, vs, _, h => absurd h (List.not_lt_nil _)
  | c :: a, d :: b, us, vs, hb, h => by
    refine List.cons_lt_cons_iff.2 ((List.cons_lt_cons_iff.1 h).imp_right fun ⟨hcd, hab⟩ => ⟨hcd, ?_⟩)
    exact append_dotted_lt us vs (fun x hx => hb x (List.mem_cons_of_mem _ hx)) hab

theorem append_left_lt_iff {l a b : List Char} : l ++ a < l ++ b ↔ a < b := by
  induction l with
  | nil => rfl
  | cons c l ih => rw [List.cons_append, List.cons_append, List.cons_lt_cons_iff, ih]; simp

/-- **Numerals with dots between them are in the order of the numerals as texts**, of which the first that differ
decide. -/
theorem joinWith_lt_iff : ∀ {us vs : List (List Char)}, (∀ p ∈ us, Numeral p) → (∀ p ∈ vs, Numeral p) →
    (joinWith ['.'] us < joinWith ['.'] vs ↔ us < vs)
  | [], [], _, _ => by simp [joinWith]
  | [], q :: vs, _, hv => by
    obtain ⟨d, b, rfl⟩ := List.exists_cons_of_ne_nil (hv q List.mem_cons_self).1
    rw [joinWith_cons, List.cons_append]
    exact iff_of_true (List.nil_lt_cons _ _) (List.nil_lt_cons _ _)
  | p :: us, [], _, _ => iff_of_false (List.not_lt_nil _) (List.not_lt_nil _)
  | p :: us, q :: vs, hu, hv => by
    have ih := joinWith_lt_iff (fun x hx => hu x (List.mem_cons_of_mem p hx)) fun x hx => hv x (List.mem_cons_of_mem q hx)
    rw [joinWith_cons, joinWith_cons, List.cons_lt_cons_iff]
    rcases lt_trichotomy p q with hpq | rfl | hqp
    · exact iff_of_true (append_dotted_lt us vs (hv q List.mem_cons_self).2 hpq) (.inl hpq)
    · have htail : dotted us < dotted vs ↔ us < vs := by
        cases us with
        | nil => cases vs <;> simp [dotted]
        | cons u us =>
          cases vs with
          | nil => simp [dotted]
          | cons v vs => rw [dotted, dotted, List.cons_lt_cons_iff, ih]; simp
      rw [append_left_lt_iff, htail]
      simp
    · have hgt := append_dotted_lt vs us (hu p List.mem_cons_self).2 hqp
      exact iff_of_false (lt_asymm hgt) (not_or.2 ⟨lt_asymm hqp, fun h => hqp.ne' h.1⟩)

/-! ## Versions -/

/-- A version as it is spelled, by its components. -/
@[ext]
structure Version where
  parts : List (List Char)
  ne_nil : parts ≠ []
  numeral : ∀ part ∈ parts, Numeral part

namespace Version

/-- The key of an SDK of a version. -/
def key (v : Version) : String := String.ofList (aliasName.toList ++ joinWith ['.'] v.parts)

def numbers (v : Version) : List Nat := v.parts.map number

/-- No component has zeros in front. -/
def Unpadded (v : Version) : Prop := ∀ part ∈ v.parts, Sdk.Unpadded part

instance : DecidablePred Unpadded := fun v => inferInstanceAs (Decidable (∀ part ∈ v.parts, Sdk.Unpadded part))

/-- At the first place at which two versions differ, the first has fewer digits, and yet comes later as a text. -/
def Outspells (w v : Version) : Prop :=
  ∃ common a b us vs, w.parts = common ++ a :: us ∧ v.parts = common ++ b :: vs ∧ a.length < b.length ∧ b < a

variable {v w : Version}

theorem key_lt_key_iff : w.key < v.key ↔ w.parts < v.parts := by
  rw [String.lt_iff_toList_lt, key, key, String.toList_ofList, String.toList_ofList, append_left_lt_iff,
    joinWith_lt_iff w.numeral v.numeral]

theorem key_injective (h : w.key = v.key) : w = v := by
  have hnot : ¬w.parts < v.parts ∧ ¬v.parts < w.parts := by
    rw [← key_lt_key_iff, ← key_lt_key_iff, h]
    exact ⟨String.lt_irrefl _, String.lt_irrefl _⟩
  exact Version.ext (le_antisymm (not_lt.1 hnot.2) (not_lt.1 hnot.1))

theorem versioned_key (v : Version) : Versioned v.key := by
  obtain ⟨p, ps, hparts⟩ := List.exists_cons_of_ne_nil v.ne_nil
  have hp : Numeral p := v.numeral p (by rw [hparts]; exact List.mem_cons_self)
  obtain ⟨d, digits, rfl⟩ := List.exists_cons_of_ne_nil hp.1
  refine ⟨d, digits ++ dotted ps, ?_, hp.2 d List.mem_cons_self⟩
  rw [key, String.toList_ofList, hparts, joinWith_cons]
  rfl

end Version

/-- A version that is not newer, and yet is spelled later, outspells the other. -/
theorem exists_outspelling : ∀ {us vs : List (List Char)}, (∀ p ∈ us, Numeral p ∧ Unpadded p) →
    (∀ p ∈ vs, Numeral p ∧ Unpadded p) → ¬vs.map number < us.map number → vs < us →
    ∃ common a b us' vs', us = common ++ a :: us' ∧ vs = common ++ b :: vs' ∧ a.length < b.length ∧ b < a
  | [], vs, _, _, _, hlt => absurd hlt (List.not_lt_nil _)
  | a :: us, [], _, _, hle, _ => absurd (List.nil_lt_cons _ _) hle
  | a :: us, b :: vs, hu, hv, hle, hlt => by
    obtain ⟨hna, hua⟩ := hu a List.mem_cons_self
    obtain ⟨hnb, hub⟩ := hv b List.mem_cons_self
    rw [List.map_cons, List.map_cons, List.cons_lt_cons_iff, not_or] at hle
    obtain hba | ⟨rfl, hrest⟩ := List.cons_lt_cons_iff.1 hlt
    · -- as numbers the two are the other way round, so the first is shorter
      refine ⟨[], a, b, us, vs, rfl, rfl, Nat.lt_of_not_le fun hlen => hle.1 ?_, hba⟩
      obtain hlen | hlen := Nat.lt_or_eq_of_le hlen
      · exact number_lt_of_length hnb hna hua hlen
      · exact (number_lt_iff hlen hnb hna).2 hba
    · obtain ⟨common, a, b', us', vs', rfl, rfl, h⟩ := exists_outspelling
        (fun p hp => hu p (List.mem_cons_of_mem _ hp)) (fun p hp => hv p (List.mem_cons_of_mem _ hp))
        (fun hlt' => hle.2 ⟨rfl, hlt'⟩) hrest
      exact ⟨_ :: common, a, b', us', vs', rfl, rfl, h⟩

namespace Version
variable {v w : Version}

theorem Outspells.key_lt (h : w.Outspells v) : v.key < w.key := by
  obtain ⟨common, a, b, us, vs, hws, hvs, -, hba⟩ := h
  rw [key_lt_key_iff, hws, hvs]
  exact List.append_left_lt (List.cons_lt_cons_iff.2 (.inl hba))

/-- **Of two versions without zeros in front, one that is not newer is spelled later exactly where it outspells the
other.** -/
theorem key_lt_key_iff_outspells (hw : w.Unpadded) (hv : v.Unpadded) (hle : ¬v.numbers < w.numbers) :
    v.key < w.key ↔ w.Outspells v := by
  refine ⟨fun h => ?_, Outspells.key_lt⟩
  exact exists_outspelling (fun p hp => ⟨w.numeral p hp, hw p hp⟩) (fun p hp => ⟨v.numeral p hp, hv p hp⟩) hle
    (key_lt_key_iff.1 h)

/-- A version that outspells another is older. -/
theorem Outspells.numbers_lt (h : w.Outspells v) (hv : v.Unpadded) : w.numbers < v.numbers := by
  obtain ⟨common, a, b, us, vs, hws, hvs, hlen, -⟩ := h
  have ha : Numeral a := w.numeral a (by simp [hws])
  have hmem : b ∈ v.parts := by simp [hvs]
  rw [numbers, numbers, hws, hvs, List.map_append, List.map_append]
  exact List.append_left_lt (List.cons_lt_cons_iff.2
    (.inl (number_lt_of_length ha (v.numeral b hmem) (hv b hmem) hlen)))

end Version

/-! ## The newest version -/

section
variable (fs : FileSystem) (developerDir : Path)

/-- A version that is offered, when none that is offered is newer. -/
structure Newest (v : Version) : Prop where
  offered : Offered fs developerDir v.key
  newest : ∀ w : Version, Offered fs developerDir w.key → ¬v.numbers < w.numbers

variable {fs developerDir}

theorem finite_offered : {v : Version | Offered fs developerDir v.key}.Finite := by
  have hkeys : {k | k ∈ (named fs developerDir).map Prod.fst}.Finite := List.finite_toSet _
  have hversions : (Set.preimage Version.key {k | k ∈ (named fs developerDir).map Prod.fst}).Finite :=
    hkeys.preimage fun v _ w _ hkey => Version.key_injective hkey
  refine hversions.subset fun v hv => ?_
  obtain ⟨path, hl⟩ := exists_lookup_named_iff.2 hv
  have hmem : (v.key, path) ∈ named fs developerDir := ascends_named.lookup_eq_some_iff.1 hl
  exact List.mem_map.2 ⟨_, hmem, rfl⟩

/-- **Where versions are offered, one of them is the newest.** -/
theorem exists_newest {w : Version} (h : Offered fs developerDir w.key) : ∃ v, Newest fs developerDir v := by
  obtain ⟨v, hv, hmax⟩ := Set.exists_max_image _ Version.numbers finite_offered ⟨w, h⟩
  exact ⟨v, hv, fun w hw => not_lt.2 (hmax w hw)⟩

theorem keyOf_of_prevails {k : String} {path : Path} (h : Prevails fs developerDir k path) : keyOf path = k := by
  obtain ⟨before, platform, after, name, -, ho, -, -, rfl⟩ := h
  obtain ⟨⟨-, hsdk⟩, hkey⟩ := offers_iff.1 ho
  rw [keyOf_join _ hsdk, hkey]

/-- **What the alias has to do with the newest version**, where no SDK is called like the alias.  If versions are offered
there is a newest.  The alias stands for it exactly when no other key that goes on with a digit is spelled later; and
where all these keys are versions without zeros in front, exactly when no older version outspells it. -/
theorem newest_under_alias (h : ¬Offered fs developerDir aliasName) :
    ((∃ w : Version, Offered fs developerDir w.key) →
      ∃ v path, Newest fs developerDir v ∧ Prevails fs developerDir v.key path) ∧
    ∀ v path, Newest fs developerDir v → Prevails fs developerDir v.key path →
      ((table fs developerDir).lookup aliasName = some path ↔
        ∀ k, Versioned k → Offered fs developerDir k → k ≤ v.key) ∧
      ((∀ k, Versioned k → Offered fs developerDir k → ∃ w : Version, w.key = k ∧ w.Unpadded) →
        ((table fs developerDir).lookup aliasName = some path ↔
          ¬∃ w : Version, Offered fs developerDir w.key ∧ w.numbers < v.numbers ∧ w.Outspells v)) := by
  refine ⟨fun ⟨w, hw⟩ => ?_, fun v path hv hp => ?_⟩
  · obtain ⟨v, hv⟩ := exists_newest hw
    obtain ⟨path, hp⟩ := exists_prevails_iff.2 hv.offered
    exact ⟨v, path, hv, hp⟩
  · have hiff : (table fs developerDir).lookup aliasName = some path ↔
        ∀ k, Versioned k → Offered fs developerDir k → k ≤ v.key := by
      rw [lookup_alias_iff h]
      constructor
      · rintro ⟨k, -, hk, hlast⟩
        rwa [← keyOf_of_prevails hp, keyOf_of_prevails hk]
      · exact fun hlast => ⟨v.key, v.versioned_key, hp, hlast⟩
    refine ⟨hiff, fun hplain => hiff.trans ⟨?_, fun hnone k hk hko => ?_⟩⟩
    · rintro hlast ⟨w, hw, -, hout⟩
      exact String.not_lt.2 (hlast _ w.versioned_key hw) hout.key_lt
    · obtain ⟨w, rfl, hw⟩ := hplain k hk hko
      obtain ⟨v', hkey, hv'⟩ := hplain _ v.versioned_key hv.offered
      rw [Version.key_injective hkey] at hv'
      refine String.not_lt.1 fun hlt => ?_
      have hout := (Version.key_lt_key_iff_outspells hw hv' (hv.newest w hko)).1 hlt
      exact hnone ⟨w, hko, hout.numbers_lt hv', hout⟩

end

namespace Sample

def tenNine : Version := ⟨[['1', '0'], ['9']], by decide, by decide⟩

def tenTen : Version := ⟨[['1', '0'], ['1', '0']], by decide, by decide⟩

def tenEleven : Version := ⟨[['1', '0'], ['1', '1']], by decide, by decide⟩

/-- One version has more digits than the other. -/
def longerVersion : List Name := ["MacOSX10.9.sdk", "MacOSX10.11.sdk"]

theorem keyOf_tenNine : keyOf ⟨"MacOSX10.9.sdk"⟩ = tenNine.key := by decide +kernel

theorem keyOf_tenTen : keyOf ⟨"MacOSX10.10.sdk"⟩ = tenTen.key := by decide +kernel

theorem keyOf_tenEleven : keyOf ⟨"MacOSX10.11.sdk"⟩ = tenEleven.key := by decide +kernel

theorem offered_installation {sdks : List Name} {key : String} (h : Offered (installation sdks) ⟨"/"⟩ key) :
    ∃ name ∈ sdks, keyOf ⟨name⟩ = key := by
  obtain ⟨platform, hp, name, ho⟩ := h
  obtain ⟨-, hn, hkey⟩ := offers_installation hp ho
  exact ⟨name, hn, hkey⟩

theorem offered_twoVersions {key : String} (h : Offered (installation twoVersions) ⟨"/"⟩ key) :
    key = tenEleven.key ∨ key = tenTen.key := by
  obtain ⟨name, hn, rfl⟩ := offered_installation h
  simp only [twoVersions, List.mem_cons, List.not_mem_nil, or_false] at hn
  obtain rfl | rfl := hn
  · exact .inl keyOf_tenEleven
  · exact .inr keyOf_tenTen

theorem offered_longerVersion {key : String} (h : Offered (installation longerVersion) ⟨"/"⟩ key) :
    key = tenNine.key ∨ key = tenEleven.key := by
  obtain ⟨name, hn, rfl⟩ := offered_installation h
  simp only [longerVersion, List.mem_cons, List.not_mem_nil, or_false] at hn
  obtain rfl | rfl := hn
  · exact .inl keyOf_tenNine
  · exact .inr keyOf_tenEleven

end Sample

section
open Sample

/-- Of two versions with equally many digits the alias stands for the newer. -/
theorem newest_under_alias_ten :
    ¬Offered (installation twoVersions) ⟨"/"⟩ aliasName ∧
    Newest (installation twoVersions) ⟨"/"⟩ tenEleven ∧
    (table (installation twoVersions) ⟨"/"⟩).lookup aliasName = some (sdkPath "MacOSX10.11.sdk") := by
  have hno : ¬Offered (installation twoVersions) ⟨"/"⟩ aliasName := fun ho => by
    obtain h | h := offered_twoVersions ho <;> exact absurd h (by decide)
  have hprevails : Prevails (installation twoVersions) ⟨"/"⟩ tenEleven.key (sdkPath "MacOSX10.11.sdk") := by
    rw [← keyOf_tenEleven]
    refine prevails_installation (by decide) (by decide) ?_
    simp [twoVersions, keyOf_tenTen, keyOf_tenEleven, show tenTen.key ≠ tenEleven.key by decide]
  have hnewest : Newest (installation twoVersions) ⟨"/"⟩ tenEleven := by
    refine ⟨exists_prevails_iff.1 ⟨_, hprevails⟩, fun w hw => ?_⟩
    obtain h | h := offered_twoVersions hw <;> rw [Version.key_injective h] <;> decide
  have hplain : ∀ k, Versioned k → Offered (installation twoVersions) ⟨"/"⟩ k →
      ∃ w : Version, w.key = k ∧ w.Unpadded := by
    intro k _ ho
    obtain rfl | rfl := offered_twoVersions ho
    · exact ⟨tenEleven, rfl, by decide⟩
    · exact ⟨tenTen, rfl, by decide⟩
  have hnone : ¬∃ w : Version, Offered (installation twoVersions) ⟨"/"⟩ w.key ∧ w.numbers < tenEleven.numbers ∧
      w.Outspells tenEleven := by
    rintro ⟨w, ho, -, common, a, b, us, vs, hw, hv, hlen, -⟩
    have htwo : ∀ part ∈ tenEleven.parts ++ tenTen.parts, part.length = 2 := by decide
    have hb : b.length = 2 := htwo b (by rw [hv]; simp)
    have ha : a ∈ w.parts := by rw [hw]; simp
    have ha' : a.length = 2 := by
      obtain h | h := offered_twoVersions ho <;> rw [Version.key_injective h] at ha
      · exact htwo a (List.mem_append_left _ ha)
      · exact htwo a (List.mem_append_right _ ha)
    omega
  exact ⟨hno, hnewest, (((newest_under_alias hno).2 _ _ hnewest hprevails).2 hplain).2 hnone⟩

/-- **The alias can stand for an older version.**  As a text, `macosx10.9` comes after `macosx10.11`. -/
theorem older_under_alias :
    ¬Offered (installation longerVersion) ⟨"/"⟩ aliasName ∧
    Newest (installation longerVersion) ⟨"/"⟩ tenEleven ∧
    Prevails (installation longerVersion) ⟨"/"⟩ tenEleven.key (sdkPath "MacOSX10.11.sdk") ∧
    (table (installation longerVersion) ⟨"/"⟩).lookup aliasName = some (sdkPath "MacOSX10.9.sdk") ∧
    tenNine.numbers < tenEleven.numbers ∧ sdkPath "MacOSX10.9.sdk" ≠ sdkPath "MacOSX10.11.sdk" := by
  have hkeys : tenNine.key ≠ tenEleven.key := by decide
  have hno : ¬Offered (installation longerVersion) ⟨"/"⟩ aliasName := fun ho => by
    obtain h | h := offered_longerVersion ho <;> exact absurd h (by decide)
  have hnine : Prevails (installation longerVersion) ⟨"/"⟩ tenNine.key (sdkPath "MacOSX10.9.sdk") := by
    rw [← keyOf_tenNine]
    refine prevails_installation (by decide) (by decide) ?_
    simp [longerVersion, keyOf_tenNine, keyOf_tenEleven, hkeys.symm]
  have heleven : Prevails (installation longerVersion) ⟨"/"⟩ tenEleven.key (sdkPath "MacOSX10.11.sdk") := by
    rw [← keyOf_tenEleven]
    refine prevails_installation (by decide) (by decide) ?_
    simp [longerVersion, keyOf_tenNine, keyOf_tenEleven, hkeys]
  refine ⟨hno, ⟨exists_prevails_iff.1 ⟨_, heleven⟩, fun w hw => ?_⟩, heleven, (lookup_alias_iff hno).2
    ⟨tenNine.key, tenNine.versioned_key, hnine, fun other _ ho => ?_⟩, by decide, by decide⟩
  · obtain h | h := offered_longerVersion hw <;> rw [Version.key_injective h] <;> decide
  · obtain rfl | rfl := offered_longerVersion ho <;> decide

end
end Recheck.Sdk

import Recheck.Cache.Record
/-!
# Fingerprints tell command lines apart

The written form of a character can be read back off whatever follows it (`readEscaped_escape`), so a list of quoted
texts determines the texts (`encodeList_injective`).  The files stand at one place of a command line, between the
analyzer and the options, so two configurations with one fingerprint have the same command line for all files, and two
with different fingerprints have it for none (`commandLine_eq_iff`).
-/
namespace Recheck
namespace Quoted

/-! ## Reading back -/

/-- The value of a hexadecimal digit in lower case. -/
def hexValue (c : Char) : Nat := "0123456789abcdef".toList.idxOf c

/-- The character that a reverse solidus and `c` stand for. -/
def shortForm? (c : Char) : Option Char :=
  if c = '"' ∨ c = '\\' then some c
  else if c = 'b' then some '\x08'
  else if c = 'f' then some '\x0c'
  else if c = 'n' then some '\n'
  else if c = 'r' then some '\r'
  else if c = 't' then some '\t'
  else none

/-- The first character of a written text and what is written after it; nothing at the end of the text. -/
def readEscaped : List Char → Option (Char × List Char)
  | '\\' :: 'u' :: '0' :: '0' :: a :: b :: rest => some (Char.ofNat (hexValue a * 16 + hexValue b), rest)
  | '\\' :: c :: rest                           => (shortForm? c).map (·, rest)
  | '"' :: _                                    => none
  | c :: rest                                   => some (c, rest)
  | []                                          => none

theorem hexValue_hexDigit (n : Nat) : hexValue (hexDigit n) = n % 16 := by
  have h : ∀ d < 16, hexValue (Nat.digitChar d) = d := by decide
  exact h _ (Nat.mod_lt n (by decide))

/-- **The written form of a character can be read back, whatever follows it.** -/
theorem readEscaped_escape (c : Char) (rest : List Char) : readEscaped (escape c ++ rest) = some (c, rest) := by
  unfold escape
  split
  · subst_vars; rfl
  split
  · subst_vars; rfl
  split
  · subst_vars; rfl
  split
  · subst_vars; rfl
  split
  · subst_vars; rfl
  split
  · subst_vars; rfl
  split
  · subst_vars; rfl
  split
  · rename_i h
    have hv : c.toNat / 16 % 16 * 16 + c.toNat % 16 = c.toNat := by omega
    simp only [List.cons_append, List.nil_append, readEscaped, hexValue_hexDigit, hv, Char.ofNat_toNat]
  · simp only [List.cons_append, List.nil_append]
    rw [readEscaped.eq_def]
    split <;> simp_all

theorem escape_append_ne_quote (c : Char) (rest rest' : List Char) : escape c ++ rest ≠ '"' :: rest' := by
  intro h
  have := readEscaped_escape c rest
  rw [h] at this
  cases this

theorem escape_close_inj : ∀ {cs ds r r' : List Char},
    cs.flatMap escape ++ '"' :: r = ds.flatMap escape ++ '"' :: r' → cs = ds ∧ r = r'
  | [], [], _, _, h => by simpa using h
  | [], d :: ds, r, r', h => by
    rw [List.flatMap_cons, List.append_assoc] at h
    exact absurd h.symm (escape_append_ne_quote d _ _)
  | c :: cs, [], r, r', h => by
    rw [List.flatMap_cons, List.append_assoc] at h
    exact absurd h (escape_append_ne_quote c _ _)
  | c :: cs, d :: ds, r, r', h => by
    rw [List.flatMap_cons, List.flatMap_cons, List.append_assoc, List.append_assoc] at h
    have hr := readEscaped_escape c (cs.flatMap escape ++ '"' :: r)
    rw [h, readEscaped_escape] at hr
    simp only [Option.some.injEq, Prod.mk.injEq] at hr
    obtain ⟨rfl, hrest⟩ := hr
    obtain ⟨rfl, rfl⟩ := escape_close_inj hrest.symm
    exact ⟨rfl, rfl⟩

theorem encode_append_inj {t u r r' : List Char} (h : encode t ++ r = encode u ++ r') : t = u ∧ r = r' := by
  simp only [encode, List.cons_append, List.append_assoc, List.nil_append, List.cons.injEq, true_and] at h
  exact escape_close_inj h

/-! ## Lists -/

theorem encodeItems_inj : ∀ {ts us : List (List Char)}, encodeItems ts ++ [']'] = encodeItems us ++ [']'] → ts = us
  | [], [], _ => rfl
  | [], [u], h => by simp [encodeItems, encode] at h
  | [], u :: v :: us, h => by simp [encodeItems, encode] at h
  | [t], [], h => by simp [encodeItems, encode] at h
  | t :: v :: ts, [], h => by simp [encodeItems, encode] at h
  | [t], [u], h => by rw [(encode_append_inj h).1]
  | [t], u :: v :: us, h => by
    rw [encodeItems, encodeItems, List.append_assoc] at h
    have := (encode_append_inj h).2
    simp at this
  | t :: v :: ts, [u], h => by
    rw [encodeItems, encodeItems, List.append_assoc] at h
    have := (encode_append_inj h).2
    simp at this
  | t :: v :: ts, u :: w :: us, h => by
    rw [encodeItems, encodeItems, List.append_assoc, List.append_assoc] at h
    obtain ⟨rfl, hrest⟩ := encode_append_inj h
    rw [encodeItems_inj (List.cons.inj hrest).2]

/-- **A written list determines its texts.** -/
theorem encodeList_injective {ts us : List (List Char)} (h : encodeList ts = encodeList us) : ts = us :=
  encodeItems_inj (List.cons.inj h).2

end Quoted

namespace Configuration

theorem commandLine_eq (c : Configuration) (files : List Path) :
    c.commandLine files = c.analyzer.text :: (files.map Path.text ++ "--" :: flatten c.options) := by
  have hf : (files.map fun f => Arg.token f.text).flatMap Arg.tokens = files.map Path.text := by
    rw [List.flatMap_map, List.map_eq_flatMap]
    rfl
  simp [commandLine, render, flatten, Arg.tokens, hf]

/-- Two configurations have the same fingerprint exactly when they have the same command line without files. -/
theorem fingerprint_eq_iff (c c' : Configuration) :
    c.fingerprint = c'.fingerprint ↔ c.commandLine [] = c'.commandLine [] := by
  constructor
  · intro h
    have ht := Quoted.encodeList_injective (String.ofList_injective h)
    exact (List.map_inj_right fun _ _ => String.toList_inj.1).1 ht
  · intro h
    rw [fingerprint, fingerprint, h]

/-- **Command lines for any files are the same exactly when the fingerprints are.** -/
theorem commandLine_eq_iff (c c' : Configuration) (files : List Path) :
    c.commandLine files = c'.commandLine files ↔ c.fingerprint = c'.fingerprint := by
  rw [fingerprint_eq_iff]
  simp [commandLine_eq]

theorem fingerprint_ne_absent (c : Configuration) : c.fingerprint ≠ Record.absent := by
  intro h
  have := congrArg (fun s => s.toList.head?) h
  simp only [fingerprint, String.toList_ofList, Quoted.encodeList] at this
  exact absurd (show some '[' = some '(' from this) (by decide)

/-- **What fingerprints tell about invocations.**  Two configurations have the same fingerprint exactly when they have the
same command line, whatever the files are; so for which files they are compared does not matter.  No fingerprint is taken
for a missing record. -/
theorem fingerprints_tell_invocations (c c' : Configuration) :
    (∀ files, c.fingerprint = c'.fingerprint ↔ c.commandLine files = c'.commandLine files) ∧
    (∀ files files', c.commandLine files = c'.commandLine files ↔ c.commandLine files' = c'.commandLine files') ∧
    c.fingerprint ≠ Record.absent := by
  have hall : ∀ files, c.fingerprint = c'.fingerprint ↔ c.commandLine files = c'.commandLine files :=
    fun files => (commandLine_eq_iff c c' files).symm
  exact ⟨hall, fun files files' => (hall files).symm.trans (hall files'), c.fingerprint_ne_absent⟩

end Configuration
end Recheck

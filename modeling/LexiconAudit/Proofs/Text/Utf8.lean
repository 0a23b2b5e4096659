import LexiconAudit.Text.Utf8
import Mathlib.Data.List.Basic
import Mathlib.Tactic.IntervalCases

/-!
This module contains the decoding of what was encoded: the bytes of a text are well formed and spell it. Where
bytes are well formed, lenient decoding gives the same text, and zero bytes are its zero characters.
-/

namespace LexiconAudit.Text.Utf8

/-! The bytes of a text. -/

theorem toList_loop_eq (bytes : ByteArray) (i : Nat) (before : List UInt8) :
    ByteArray.toList.loop bytes i before = before.reverse ++ bytes.data.toList.drop i := by
  fun_induction ByteArray.toList.loop bytes i before with
  | case1 i before h ih =>
    have hi : i < bytes.data.toList.length := by simpa using h
    rw [ih, List.drop_eq_getElem_cons hi]
    simp [ByteArray.get!, h]
  | case2 i before h =>
    rw [List.drop_eq_nil_of_le (by simpa using Nat.le_of_not_lt h), List.append_nil]

theorem encode_eq (s : String) : encode s = s.toList.flatMap String.utf8EncodeChar := by
  rw [encode, ByteArray.toList, toList_loop_eq, List.drop_zero, List.reverse_nil, List.nil_append]
  conv => lhs; rw [← String.ofList_toList (s := s)]
  rw [String.toUTF8_eq_toByteArray, String.toByteArray_ofList]
  exact List.toList_data_toByteArray

/-! Characters of several bytes. -/

theorem lead_two {n : Nat} (hlow : 2 ≤ n) (hhigh : n < 32) :
    lead (UInt8.ofNat (n + 192)) = .opens { after := 0, bits := n } := by
  interval_cases n <;> rfl

theorem lead_three {n : Nat} (h : n < 16) : ∃ low high : UInt8,
    lead (UInt8.ofNat (n + 224)) = .opens { low, high, after := 1, bits := n } ∧
      low.toNat = (if n = 0 then 160 else 128) ∧ high.toNat = (if n = 13 then 159 else 191) := by
  interval_cases n <;> exact ⟨_, _, rfl, rfl, rfl⟩

theorem lead_four {n : Nat} (h : n < 5) : ∃ low high : UInt8,
    lead (UInt8.ofNat (n + 240)) = .opens { low, high, after := 2, bits := n } ∧
      low.toNat = (if n = 0 then 144 else 128) ∧ high.toNat = (if n = 4 then 143 else 191) := by
  interval_cases n <;> exact ⟨_, _, rfl, rfl, rfl⟩

theorem toNat_ofNat_of_lt {n : Nat} (h : n < 256) : (UInt8.ofNat n).toNat = n := by
  rw [UInt8.toNat_ofNat']
  exact Nat.mod_eq_of_lt h

section Further

variable {p : Partial} {n : Nat} (hn : n < 64) (hlow : p.low.toNat ≤ n + 128) (hhigh : n + 128 ≤ p.high.toNat)

include hn

theorem toNat_further : (UInt8.ofNat (n + 128)).toNat = n + 128 :=
  toNat_ofNat_of_lt (by omega)

include hlow hhigh

theorem bounds_further : p.low ≤ UInt8.ofNat (n + 128) ∧ UInt8.ofNat (n + 128) ≤ p.high := by
  rw [UInt8.le_iff_toNat_le, UInt8.le_iff_toNat_le, toNat_further hn]
  exact ⟨hlow, hhigh⟩

theorem decode_last (hafter : p.after = 0) (bytes : List UInt8) :
    decode (some p) (UInt8.ofNat (n + 128) :: bytes) =
      some (Char.ofNat (p.bits * 64 + n)) :: decode none bytes := by
  rw [decode]
  dsimp only
  rw [if_pos (bounds_further hn hlow hhigh), hafter, toNat_further hn, Nat.add_sub_cancel]

theorem decode_more {after : Nat} (hafter : p.after = after + 1) (bytes : List UInt8) :
    decode (some p) (UInt8.ofNat (n + 128) :: bytes) = decode (some { after, bits := p.bits * 64 + n }) bytes := by
  rw [decode]
  dsimp only
  rw [if_pos (bounds_further hn hlow hhigh), hafter, toNat_further hn, Nat.add_sub_cancel]

end Further

theorem decode_opens {b : UInt8} {p : Partial} (h : lead b = .opens p) (bytes : List UInt8) :
    decode none (b :: bytes) = decode (some p) bytes := by
  rw [decode, decodeLead, h]

theorem decode_encodeChar (c : Char) (bytes : List UInt8) :
    decode none (String.utf8EncodeChar c ++ bytes) = some c :: decode none bytes := by
  have hvalid : c.toNat < 0xD800 ∨ 0xDFFF < c.toNat ∧ c.toNat < 0x110000 := c.valid
  have hchar : Char.ofNat c.toNat = c := Char.ofNat_toNat c
  unfold String.utf8EncodeChar
  change decode none ((if c.toNat ≤ 127 then _ else _) ++ bytes) = _
  generalize hv : c.toNat = v at hvalid hchar
  rw [show c.val.toNat = v from hv]
  -- one case for each number of bytes
  split
  . have hle : UInt8.ofNat v ≤ 0x7F := by
      rw [UInt8.le_iff_toNat_le, toNat_ofNat_of_lt (by omega)]
      assumption
    have hlead : lead (UInt8.ofNat v) = .char c := by
      rw [lead, if_pos hle, toNat_ofNat_of_lt (by omega), hchar]
    rw [List.singleton_append, decode, decodeLead, hlead]
  split
  . rw [Nat.mod_eq_of_lt (show v / 64 < 32 by omega), List.cons_append, List.cons_append, List.nil_append,
      decode_opens (lead_two (by omega) (by omega)), decode_last (by omega) (by simp) (by simp; omega) rfl,
      Nat.div_add_mod' v 64, hchar]
  split
  . obtain ⟨low, high, hlead, hlow, hhigh⟩ := lead_three (show v / 4096 < 16 by omega)
    have hlow' : low.toNat ≤ v / 64 % 64 + 128 := by split at hlow <;> omega
    have hhigh' : v / 64 % 64 + 128 ≤ high.toNat := by split at hhigh <;> omega
    rw [Nat.mod_eq_of_lt (show v / 4096 < 16 by omega), List.cons_append, List.cons_append, List.cons_append,
      List.nil_append, decode_opens hlead, decode_more (by omega) hlow' hhigh' rfl,
      decode_last (by omega) (by simp) (by simp; omega) rfl,
      show (v / 4096 * 64 + v / 64 % 64) * 64 + v % 64 = v by omega, hchar]
  . obtain ⟨low, high, hlead, hlow, hhigh⟩ := lead_four (show v / 262144 < 5 by omega)
    have hlow' : low.toNat ≤ v / 4096 % 64 + 128 := by split at hlow <;> omega
    have hhigh' : v / 4096 % 64 + 128 ≤ high.toNat := by split at hhigh <;> omega
    rw [Nat.mod_eq_of_lt (show v / 262144 < 8 by omega), List.cons_append, List.cons_append, List.cons_append,
      List.cons_append, List.nil_append, decode_opens hlead, decode_more (by omega) hlow' hhigh' rfl,
      decode_more (by omega) (by simp) (by simp; omega) rfl,
      decode_last (by omega) (by simp) (by simp; omega) rfl,
      show ((v / 262144 * 64 + v / 4096 % 64) * 64 + v / 64 % 64) * 64 + v % 64 = v by omega, hchar]

theorem decode_encode (s : String) : decode none (encode s) = s.toList.map some := by
  rw [encode_eq]
  induction s.toList with
  | nil => rfl
  | cons c cs ih => rw [List.flatMap_cons, decode_encodeChar, ih, List.map_cons]

theorem mapM_id_eq_some_iff {cs : List (Option Char)} {chars : List Char} :
    cs.mapM id = some chars ↔ cs = chars.map some := by
  induction cs generalizing chars with
  | nil => cases chars <;> simp
  | cons c cs ih =>
    rw [List.mapM_cons]
    constructor
    . intro h
      obtain ⟨c', hc, hcs⟩ := Option.bind_eq_some_iff.1 h
      obtain ⟨chars', hchars, heq⟩ := Option.bind_eq_some_iff.1 hcs
      cases heq
      rw [ih.1 hchars, List.map_cons, ← hc]
      rfl
    . intro h
      cases chars with
      | nil => cases h
      | cons char chars =>
        obtain ⟨rfl, rfl⟩ := List.cons.inj h
        rw [ih.2 rfl]
        rfl

theorem decode?_eq_some_iff {bytes : List UInt8} {text : String} :
    decode? bytes = some text ↔ decode none bytes = text.toList.map some := by
  rw [decode?, Option.map_eq_some_iff]
  constructor
  . rintro ⟨chars, hchars, rfl⟩
    rw [String.toList_ofList, mapM_id_eq_some_iff.1 hchars]
  . intro h
    exact ⟨text.toList, mapM_id_eq_some_iff.2 h, String.ofList_toList⟩

theorem decode?_encode (s : String) : decode? (encode s) = some s :=
  decode?_eq_some_iff.2 (decode_encode s)

theorem decodeLenient_of_decode? {bytes : List UInt8} {text : String} (h : decode? bytes = some text) :
    decodeLenient bytes = text := by
  rw [decodeLenient, decode?_eq_some_iff.1 h, List.map_map]
  refine (congrArg String.ofList (List.map_id _)).trans ?_
  exact String.ofList_toList

/-! Zero bytes. -/

theorem low_pos_of_lead {b : UInt8} {p : Partial} (h : lead b = .opens p) : 0 < p.low := by
  unfold lead at h
  dsimp only at h
  repeat' split at h
  all_goals cases h
  all_goals
    dsimp only
    decide

theorem nul_mem_decodeLead {b : UInt8} {bytes : List UInt8} (h : b = 0 ∨ 0 ∈ bytes)
    (hmore : 0 ∈ bytes → ∀ opened : Option Partial, (∀ p ∈ opened, 0 < p.low) → some '\x00' ∈ decode opened bytes) :
    some '\x00' ∈ decodeLead b fun opened => decode opened bytes := by
  unfold decodeLead
  rcases h with rfl | h
  . exact List.mem_cons_self
  . split
    . exact List.mem_cons_of_mem _ (hmore h none nofun)
    . next hlead => exact hmore h _ fun p hp => low_pos_of_lead (hlead.trans (congrArg _ (Option.some.inj hp)))
    . exact List.mem_cons_of_mem _ (hmore h none nofun)

theorem nul_mem_decode {bytes : List UInt8} (h : 0 ∈ bytes) (opened : Option Partial)
    (hopened : ∀ p ∈ opened, 0 < p.low) : some '\x00' ∈ decode opened bytes := by
  induction bytes generalizing opened with
  | nil => cases h
  | cons b bytes ih =>
    have hb : b = 0 ∨ 0 ∈ bytes := (List.mem_cons.1 h).imp Eq.symm id
    cases opened with
    | none =>
      rw [decode]
      exact nul_mem_decodeLead hb ih
    | some p =>
      rw [decode]
      dsimp only
      split
      . next hbounds =>
        -- zero is below the bounds of a further byte
        have hmem : 0 ∈ bytes := by
          refine hb.resolve_left ?_
          rintro rfl
          exact absurd hbounds.1 (UInt8.not_le.2 (hopened p rfl))
        split
        . exact List.mem_cons_of_mem _ (ih hmem none nofun)
        . refine ih hmem _ fun q hq => ?_
          cases hq
          dsimp only
          decide
      . exact List.mem_cons_of_mem _ (nul_mem_decodeLead hb ih)

theorem nul_mem_of_decode? {bytes : List UInt8} {text : String} (h : decode? bytes = some text) (hmem : 0 ∈ bytes) :
    '\x00' ∈ text.toList := by
  have hdecode := nul_mem_decode hmem none nofun
  rw [decode?_eq_some_iff.1 h] at hdecode
  simpa using hdecode

end LexiconAudit.Text.Utf8

import Ryu.Lib.Groups
import Ryu.Ofproto.Match

/-! # Addresses in full

Addresses read and written in their full forms, an IPv6 address without any abbreviation
but that of zero, and IPv4 networks with a network length.
-/

namespace Ryu

open Numeral

def macFormat : GroupFormat where
  sep := ':'
  base := 16
  width := 2
  size := 256
  count := 6
  sep_val := by decide
  base_gt := by decide
  base_le := by decide
  size_pos := by decide
  count_gt := by decide

def ipv4Format : GroupFormat where
  sep := '.'
  base := 10
  width := 1
  size := 256
  count := 4
  sep_val := by decide
  base_gt := by decide
  base_le := by decide
  size_pos := by decide
  count_gt := by decide

def ipv6Format : GroupFormat where
  sep := ':'
  base := 16
  width := 1
  size := 65536
  count := 8
  sep_val := by decide
  base_gt := by decide
  base_le := by decide
  size_pos := by decide
  count_gt := by decide

def AddrKind.format : AddrKind → GroupFormat
  | .mac => macFormat
  | .ipv4 => ipv4Format
  | .ipv6 => ipv6Format

theorem AddrKind.size_format (k : AddrKind) : k.format.size ^ k.format.count = 256 ^ k.size := by
  cases k <;> rfl

/-- The address zero of IPv6 is abbreviated. -/
def plainText (k : AddrKind) (n : ℕ) : Text :=
  if k = .ipv6 ∧ n = 0 then "::".toList else k.format.write n

def plainBin (k : AddrKind) (t : Text) : Option ℕ :=
  if k = .ipv6 ∧ t = "::".toList then some 0 else k.format.read t

/-- An IPv4 address and a network length, with the netmask. -/
def plainNetwork (t : Text) : Option (Text × Text) :=
  match t.splitOn '/' with
  | [ip, len] =>
    match plainBin .ipv4 ip, ofDigits 10 0 len with
    | some n, some l =>
      if l ≤ 32 then some (plainText .ipv4 n, plainText .ipv4 (2 ^ 32 - 2 ^ (32 - l))) else none
    | _, _ => none
  | _ => none

theorem format_sep (k : AddrKind) : k.format.sep ≠ '/' ∧ k.format.sep.isDigit = false := by
  cases k <;> decide

theorem plainBin_plainText {k : AddrKind} {n : ℕ} (h : n < 256 ^ k.size) :
    plainBin k (plainText k n) = some n := by
  unfold plainText
  split
  · next h0 =>
    simp [plainBin, h0.1, h0.2]
  · next h0 =>
    have hr : k.format.read (k.format.write n) = some n :=
      GroupFormat.read_write (by rwa [k.size_format])
    unfold plainBin
    split
    · next hz =>
      have hbad : ipv6Format.read "::".toList = none := by decide
      rw [hz.1] at hr hz
      rw [hz.2] at hr
      exact absurd (hbad.symm.trans hr) (by simp)
    · exact hr

/-- Addresses in full. -/
def plainConv : AddrConv where
  textToBin k t := (plainBin k t).map fun n => (n, none)
  binToText := plainText
  ipNetwork := plainNetwork
  lt_size := by
    rintro k t v m h
    obtain ⟨n, hn, he⟩ := Option.map_eq_some_iff.mp h
    cases he
    refine ⟨?_, by simp⟩
    unfold plainBin at hn
    split at hn
    · cases hn
      exact Nat.pow_pos (by decide)
    · rw [← k.size_format]
      exact GroupFormat.read_lt hn
  text_bin h := by rw [plainBin_plainText h, Option.map_some]
  no_slash := by
    intro k v _
    unfold plainText
    split
    · decide
    · exact GroupFormat.not_mem_write (format_sep k).1.symm (by decide)
  not_digits := by
    intro k v _
    unfold plainText
    split
    · decide
    · exact GroupFormat.isDigits_write _ (format_sep k).2 _
  ipv4_zero := by decide
  ipv6_zero := by decide

end Ryu

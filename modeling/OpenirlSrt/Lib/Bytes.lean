import Mathlib

/-! # Words and bytes -/

namespace OpenirlSrt.Lib

open Nat

abbrev Byte := UInt8

def storeBe16 (v : UInt16) : List Byte := [(v >>> 8).toUInt8, v.toUInt8]

def storeBe32 (v : UInt32) : List Byte :=
  [(v >>> 24).toUInt8, (v >>> 16).toUInt8, (v >>> 8).toUInt8, v.toUInt8]

def loadBe16 (a b : Byte) : UInt16 := .ofNat (a.toNat * 2 ^ 8 + b.toNat)

def loadBe32 (a b c d : Byte) : UInt32 :=
  .ofNat (a.toNat * 2 ^ 24 + b.toNat * 2 ^ 16 + c.toNat * 2 ^ 8 + d.toNat)

def loadLe32 (a b c d : Byte) : UInt32 := loadBe32 d c b a

variable (bytes : List Byte) (words : List UInt32) (v : UInt32)

theorem shiftRight_toNat : (v >>> 24).toNat = v.toNat / 2 ^ 24 ∧ (v >>> 16).toNat = v.toNat / 2 ^ 16 ∧
      (v >>> 8).toNat = v.toNat / 2 ^ 8 := by
  simp [shiftRight_eq_div_pow]

variable (a b c d : Byte)

theorem loadBe32_toNat :
    (loadBe32 a b c d).toNat = a.toNat * 2 ^ 24 + b.toNat * 2 ^ 16 + c.toNat * 2 ^ 8 + d.toNat := by
  have := a.toNat_lt
  have := b.toNat_lt
  have := c.toNat_lt
  have := d.toNat_lt
  rw [loadBe32, UInt32.toNat_ofNat', mod_eq_of_lt (by omega)]

@[simp] theorem storeBe32_loadBe32 : storeBe32 (loadBe32 a b c d) = [a, b, c, d] := by
  have := a.toNat_lt
  have := b.toNat_lt
  have := c.toNat_lt
  have := d.toNat_lt
  simp only [storeBe32, List.cons.injEq, ← UInt8.toNat_inj, shiftRight_toNat,
    UInt32.toNat_toUInt8, loadBe32_toNat, and_true]
  omega

theorem loadBe32_storeBe32 : loadBe32 (v >>> 24).toUInt8 (v >>> 16).toUInt8 (v >>> 8).toUInt8 v.toUInt8 = v := by
  have := v.toNat_lt
  simp only [← UInt32.toNat_inj, loadBe32_toNat, shiftRight_toNat, UInt32.toNat_toUInt8]
  omega

theorem loadBe16_toNat (a b : Byte) : (loadBe16 a b).toNat = a.toNat * 2 ^ 8 + b.toNat := by
  have := a.toNat_lt
  have := b.toNat_lt
  rw [loadBe16, UInt16.toNat_ofNat', mod_eq_of_lt (by omega)]

theorem loadBe16_storeBe16 (v : UInt16) : loadBe16 (v >>> 8).toUInt8 v.toUInt8 = v := by
  have := v.toNat_lt
  have shift : (v >>> 8).toNat = v.toNat / 2 ^ 8 := by simp [shiftRight_eq_div_pow]
  simp only [← UInt16.toNat_inj, loadBe16_toNat, UInt16.toNat_toUInt8, shift]
  omega

theorem loadBe32_high : (loadBe32 a b c d >>> 16).toUInt16 = loadBe16 a b := by
  have := a.toNat_lt
  have := b.toNat_lt
  have := c.toNat_lt
  have := d.toNat_lt
  simp only [← UInt16.toNat_inj, UInt32.toNat_toUInt16, shiftRight_toNat, loadBe32_toNat, loadBe16_toNat]
  omega

@[simp] theorem storeBe32_length : (storeBe32 v).length = 4 := rfl

def wordsBe32 : List Byte → List UInt32
  | a :: b :: c :: d :: rest => loadBe32 a b c d :: wordsBe32 rest
  | _ => []

@[simp] theorem wordsBe32_storeBe32 : wordsBe32 (words.flatMap storeBe32) = words := by
  induction words with
  | nil => rfl
  | cons w rest ih =>
    simp only [List.flatMap_cons, storeBe32, List.cons_append, List.nil_append, wordsBe32, ih,
      loadBe32_storeBe32]

theorem flatMap_storeBe32_length : (words.flatMap storeBe32).length = 4 * words.length := by
  induction words with
  | nil => rfl
  | cons w rest ih => simp [ih]; omega

def swapWords : List Byte → List Byte
  | a :: b :: c :: d :: rest => d :: c :: b :: a :: swapWords rest
  | rest => rest

def wordsToBe : List Byte → List Byte
  | a :: b :: c :: d :: rest => storeBe32 (loadLe32 a b c d) ++ wordsToBe rest
  | rest => rest

@[simp] theorem wordsToBe_swapWords : wordsToBe (swapWords bytes) = bytes := by
  induction bytes using swapWords.induct with
  | case1 a b c d rest ih => simp [swapWords, wordsToBe, loadLe32, ih]
  | case2 rest short => rw [swapWords, wordsToBe] <;> exact short

@[simp] theorem swapWords_length : (swapWords bytes).length = bytes.length := by
  induction bytes using swapWords.induct with
  | case1 a b c d rest ih => simp [swapWords, ih]
  | case2 rest short => rw [swapWords]; exact short

def bitsMask (high low : Nat) : UInt32 := .ofNat (2 ^ (high + 1) - 2 ^ low)

def bitsWrap (high low : Nat) (value : UInt32) : UInt32 := (value <<< .ofNat low) &&& bitsMask high low

def bitsUnwrap (high low : Nat) (word : UInt32) : UInt32 := (word &&& bitsMask high low) >>> .ofNat low

/-! ## The halves of a word -/

variable (v : UInt32) (w : UInt32)

theorem bitsUnwrap_high : (bitsUnwrap 31 16 w).toNat = w.toNat / 0x10000 := by
  have small : w.toNat >>> 16 < 2 ^ 16 := by
    have := w.toNat_lt
    omega
  have mask : (bitsMask 31 16).toNat = 0xFFFF0000 := by decide
  have shift : (UInt32.ofNat 16).toNat % 32 = 16 := by decide
  rw [bitsUnwrap, UInt32.toNat_shiftRight, UInt32.toNat_and, mask, shift, shiftRight_and_distrib]
  show w.toNat >>> 16 &&& (2 ^ 16 - 1) = _
  rw [and_two_pow_sub_one_of_lt_two_pow small, shiftRight_eq_div_pow]

theorem bitsUnwrap_low : (bitsUnwrap 15 0 w).toNat = w.toNat % 0x10000 := by
  have mask : (bitsMask 15 0).toNat = 2 ^ 16 - 1 := by decide
  have shift : (UInt32.ofNat 0).toNat % 32 = 0 := by decide
  rw [bitsUnwrap, UInt32.toNat_shiftRight, UInt32.toNat_and, mask, shift, shiftRight_zero, and_two_pow_sub_one_eq_mod]

theorem bitsWrap_high : (bitsWrap 31 16 v).toNat = (v.toNat % 0x10000) <<< 16 := by
  have mask : (bitsMask 31 16).toNat = (2 ^ 16 - 1) <<< 16 := by decide
  have shift : (UInt32.ofNat 16).toNat % 32 = 16 := by decide
  have cut : v.toNat <<< 16 % 2 ^ 32 = (v.toNat % 0x10000) <<< 16 := by
    omega
  have whole : v.toNat % 0x10000 &&& (2 ^ 16 - 1) = v.toNat % 0x10000 :=
    and_two_pow_sub_one_of_lt_two_pow (mod_lt _ (by decide))
  rw [bitsWrap, UInt32.toNat_and, UInt32.toNat_shiftLeft, mask, shift, cut, ← shiftLeft_and_distrib, whole]

theorem bitsWrap_low : (bitsWrap 15 0 v).toNat = v.toNat % 0x10000 := by
  have mask : (bitsMask 15 0).toNat = 2 ^ 16 - 1 := by decide
  have shift : (UInt32.ofNat 0).toNat % 32 = 0 := by decide
  have cut : v.toNat <<< 0 % 2 ^ 32 = v.toNat := by
    exact mod_eq_of_lt v.toNat_lt
  rw [bitsWrap, UInt32.toNat_and, UInt32.toNat_shiftLeft, mask, shift, cut, and_two_pow_sub_one_eq_mod]

variable (high low : UInt32)

theorem halves_toNat :
    (bitsWrap 31 16 high ||| bitsWrap 15 0 low).toNat = high.toNat % 0x10000 * 0x10000 + low.toNat % 0x10000 := by
  have small : low.toNat % 0x10000 < 2 ^ 16 := mod_lt _ (by decide)
  rw [UInt32.toNat_or, bitsWrap_high, bitsWrap_low, ← shiftLeft_add_eq_or_of_lt small, shiftLeft_eq]

theorem high_of_halves :
    (bitsUnwrap 31 16 (bitsWrap 31 16 high ||| bitsWrap 15 0 low)).toNat = high.toNat % 0x10000 := by
  rw [bitsUnwrap_high, halves_toNat]
  omega

theorem low_of_halves : (bitsUnwrap 15 0 (bitsWrap 31 16 high ||| bitsWrap 15 0 low)).toNat = low.toNat % 0x10000 := by
  rw [bitsUnwrap_low, halves_toNat]
  omega

end OpenirlSrt.Lib

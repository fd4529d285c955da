import Mathlib.Data.List.TakeWhile
import NexoraGateway.Text.Json

/-!
# `application/x-www-form-urlencoded` (the query of a URL)

`parse` reads the pairs of a query, and `serialize` writes them. A `+` is a blank before what is percent-encoded is
decoded, so that an encoded `+` stays one.

* `parse_serialize` — what was written is read back.
-/
namespace Text.Form

/-! ## Writing -/

/-- The octets that stand for themselves: letters, digits, `*`, `-`, `.` and `_`. -/
def isPlain (b : Nat) : Bool :=
  (0x30 ≤ b && b ≤ 0x39) || (0x41 ≤ b && b ≤ 0x5a) || (0x61 ≤ b && b ≤ 0x7a) || b ∈ [0x2a, 0x2d, 0x2e, 0x5f]

def hexDigit (n : Nat) : Char := Char.ofNat (if n < 10 then 0x30 + n else 0x37 + n)

def encodeOctet (b : Nat) : List Char :=
  if b = 0x20 then ['+']
  else if isPlain b then [Char.ofNat b]
  else ['%', hexDigit (b / 16), hexDigit (b % 16)]

def encode (cs : List Char) : List Char := (Utf8.encode cs).flatMap encodeOctet

def write (pair : List Char × List Char) : List Char := encode pair.1 ++ '=' :: encode pair.2

def serialize (pairs : List (List Char × List Char)) : List Char := ['&'].intercalate (pairs.map write)

/-! ## Reading -/

def plusToBlank (b : Nat) : Nat := if b = 0x2b then 0x20 else b

/-- A `%` that is not followed by two digits stands for itself. -/
def percentDecode : List Nat → List Nat
  | [] => []
  | b :: bs =>
    if b = 0x25 then
      match bs with
      | x :: y :: rest =>
        match Json.hexDigit? (Char.ofNat x), Json.hexDigit? (Char.ofNat y) with
        | some high, some low => (16 * high + low) :: percentDecode rest
        | _, _ => b :: percentDecode (x :: y :: rest)
      | bs => b :: percentDecode bs
    else b :: percentDecode bs

def decode (cs : List Char) : List Char := Utf8.decode (percentDecode ((Utf8.encode cs).map plusToBlank))

/-- Name and value of a piece, apart at its first `=`. -/
def pair (piece : List Char) : List Char × List Char :=
  (decode (piece.takeWhile (· ≠ '=')), decode ((piece.dropWhile (· ≠ '=')).drop 1))

def parse (query : List Char) : List (List Char × List Char) := ((query.splitOn '&').filter (· ≠ [])).map pair

example : parse "a=1&&to%6Ben=x+y%2B%&b".toList =
    [(['a'], ['1']), ("token".toList, "x y+%".toList), (['b'], [])] := by decide +kernel

/-! ## Round trip -/

variable {cs rest : List Char} {c : Char} {b : Nat}

theorem encodeOctet_clean (hb : b < 256) (hc : c ∈ encodeOctet b) : c ∉ ['&', '=', '?', '#'] := by
  have hall : ∀ b < 256, (encodeOctet b).all (fun c => c ∉ ['&', '=', '?', '#']) = true := by decide +kernel
  exact of_decide_eq_true (List.all_eq_true.1 (hall b hb) c hc)

theorem encode_clean (hc : c ∈ encode cs) : c ∉ ['&', '=', '?', '#'] := by
  obtain ⟨b, hb, hc⟩ := List.mem_flatMap.1 hc
  exact encodeOctet_clean (Utf8.encode_lt hb) hc

/-- The octets of an encoded octet. -/
theorem octets_encodeOctet (hb : b < 256) : (Utf8.encode (encodeOctet b)).map plusToBlank =
    if b = 0x20 ∨ isPlain b = true then [b] else [0x25, (hexDigit (b / 16)).toNat, (hexDigit (b % 16)).toNat] := by
  have hall : ∀ b < 256, (Utf8.encode (encodeOctet b)).map plusToBlank = if b = 0x20 ∨ isPlain b = true then [b]
      else [0x25, (hexDigit (b / 16)).toNat, (hexDigit (b % 16)).toNat] := by decide +kernel
  exact hall b hb

theorem hexDigit?_hexDigit {n : Nat} (hn : n < 16) : Json.hexDigit? (hexDigit n) = some n := by
  have hall : ∀ n < 16, Json.hexDigit? (hexDigit n) = some n := by decide +kernel
  exact hall n hn

theorem percentDecode_other (h : b ≠ 0x25) (bs : List Nat) : percentDecode (b :: bs) = b :: percentDecode bs := by
  cases bs with
  | nil => simp [percentDecode]
  | cons x bs => cases bs <;> simp [percentDecode, h]

theorem percentDecode_digits {high low : Nat} (hhigh : high < 16) (hlow : low < 16) (bs : List Nat) :
    percentDecode (0x25 :: (hexDigit high).toNat :: (hexDigit low).toNat :: bs) =
      (16 * high + low) :: percentDecode bs := by
  simp only [percentDecode, if_true, Char.ofNat_toNat, hexDigit?_hexDigit hhigh, hexDigit?_hexDigit hlow]

theorem percentDecode_encodeOctet (hb : b < 256) (bs : List Nat) :
    percentDecode ((Utf8.encode (encodeOctet b)).map plusToBlank ++ bs) = b :: percentDecode bs := by
  rw [octets_encodeOctet hb]
  split
  · rename_i hplain
    have hpercent : b ≠ 0x25 := by
      rintro rfl
      exact absurd hplain (by decide)
    rw [List.singleton_append, percentDecode_other hpercent]
  · simp only [List.cons_append, List.nil_append]
    rw [percentDecode_digits (by omega) (Nat.mod_lt b (by decide)), Nat.div_add_mod]

theorem decode_encode (cs : List Char) : decode (encode cs) = cs := by
  have hoctets (bs : List Nat) (hbs : ∀ b ∈ bs, b < 256) :
      percentDecode ((Utf8.encode (bs.flatMap encodeOctet)).map plusToBlank) = bs := by
    induction bs with
    | nil => rfl
    | cons b bs ih =>
      obtain ⟨hb, hbs⟩ := List.forall_mem_cons.1 hbs
      rw [List.flatMap_cons, Utf8.encode, List.flatMap_append, List.map_append]
      exact (percentDecode_encodeOctet hb _).trans (congrArg _ (ih hbs))
  rw [decode, encode, hoctets _ fun b hb => Utf8.encode_lt hb, Utf8.decode_encode]

/-- A piece is read as it was put together. -/
theorem pair_append {name value : List Char} (h : '=' ∉ name) :
    pair (name ++ '=' :: value) = (decode name, decode value) := by
  have hname : ∀ c ∈ name, decide (c ≠ '=') = true := by
    intro c hc
    rw [decide_eq_true_iff]
    rintro rfl
    exact h hc
  rw [pair, List.takeWhile_append_of_pos hname, List.dropWhile_append_of_pos hname,
    List.takeWhile_cons_of_neg (by decide), List.dropWhile_cons_of_neg (by decide), List.append_nil, List.drop_one,
    List.tail_cons]

theorem pair_write (p : List Char × List Char) : pair (write p) = p := by
  have hname : '=' ∉ encode p.1 := fun h => absurd (encode_clean h) (by decide)
  rw [write, pair_append hname, decode_encode, decode_encode]

theorem write_clean {p : List Char × List Char} (hc : c ∈ write p) : c ∉ ['&', '?', '#'] := by
  rcases List.mem_append.1 hc with hc | hc
  · have hclean := encode_clean hc
    simp_all
  · rcases List.mem_cons.1 hc with rfl | hc
    · decide
    · have hclean := encode_clean hc
      simp_all

/-- **What was written is read back.** -/
theorem parse_serialize (pairs : List (List Char × List Char)) : parse (serialize pairs) = pairs := by
  cases pairs with
  | nil => rfl
  | cons p pairs =>
    have hsplit : (serialize (p :: pairs)).splitOn '&' = (p :: pairs).map write := by
      refine List.splitOn_intercalate '&' (fun piece hpiece hamp => ?_) (by simp)
      obtain ⟨q, -, rfl⟩ := List.mem_map.1 hpiece
      exact absurd (write_clean hamp) (by decide)
    have hne : ∀ piece ∈ (p :: pairs).map write, decide (piece ≠ []) = true := by
      intro piece hpiece
      obtain ⟨q, -, rfl⟩ := List.mem_map.1 hpiece
      simp [write]
    rw [parse, hsplit, List.filter_eq_self.2 hne, List.map_map]
    exact (List.map_congr_left fun q _ => pair_write q).trans (List.map_id _)

/-- Nothing that is written ends a query. -/
theorem serialize_clean (pairs : List (List Char × List Char)) : '#' ∉ serialize pairs := by
  have hjoin (pieces : List (List Char)) (h : ∀ piece ∈ pieces, '#' ∉ piece) : '#' ∉ ['&'].intercalate pieces := by
    induction pieces with
    | nil => simp
    | cons piece pieces ih =>
      obtain ⟨hpiece, hpieces⟩ := List.forall_mem_cons.1 h
      cases pieces with
      | nil => simpa using hpiece
      | cons next pieces =>
        rw [List.intercalate_cons_cons]
        simpa [hpiece] using ih hpieces
  refine hjoin _ fun piece hpiece hhash => ?_
  obtain ⟨q, -, rfl⟩ := List.mem_map.1 hpiece
  exact absurd (write_clean hhash) (by decide)

end Text.Form

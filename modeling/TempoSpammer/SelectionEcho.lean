import TempoSpammer.Selection
import Mathlib.Data.Nat.Digits

/-! # The selection echo reads back

Once it has parsed a selection, `run_auto_mode` prints the wallets it selected as
`', '.join(str(i + 1) for i in selected_indices)`.  `parseWalletSelection_echo` reads that
text back: for every strictly increasing list of indices below `total_wallets`, every run
of `parse_wallet_selection` on the echo returns the list itself, so the echo names exactly
the wallets the sweep goes on to run.

The proof follows the parser's stages over the text.  `str(n)` is a nonempty string of
ASCII digits whose value is `n` (`Decimal`, `decimal_toString`), which `int()` reads back
(`pyInt_decimal`) when it has at most 4300 digits: the wallet numbers are below
`10 ** 4300`.  The joined text starts and ends with a digit, so `strip()` keeps it;
the spaces removed are those of the separator, and the split at commas gives back the
numbers' texts (`selectionParts_echo`).  The parser's own lemmas then say which numbers
those parts select. -/

namespace TempoSpammer

/-! ### `str(n)` and `int()` -/

/-- The value of an ASCII digit. -/
def digitOf (c : Char) : ℕ := c.toNat - '0'.toNat

/-- `ds` is a decimal text of `n`: a nonempty string of ASCII digits of value `n`. -/
structure Decimal (ds : List Char) (n : ℕ) : Prop where
  ne_nil : ds ≠ []
  isDigit : ∀ c ∈ ds, c.isDigit
  value : digitsValue (ds.map digitOf) = n

theorem digitChar_digit : ∀ k < 10, (Nat.digitChar k).isDigit ∧ digitOf (Nat.digitChar k) = k := by
  decide

theorem digitsValue_append_singleton (ds : List ℕ) (d : ℕ) :
    digitsValue (ds ++ [d]) = 10 * digitsValue ds + d := by
  rw [digitsValue, List.foldl_append]
  rfl

/-- `Nat.toDigitsCore` puts the decimal text of `n` in front of `ds` when its fuel exceeds
`n`; the text has at most `k + 1` digits when `n < 10 ^ (k + 1)`. -/
theorem toDigitsCore_decimal : ∀ (fuel n : ℕ) (ds : List Char), n < fuel →
    ∃ D, Nat.toDigitsCore 10 fuel n ds = D ++ ds ∧ Decimal D n ∧
      ∀ k, n < 10 ^ (k + 1) → D.length ≤ k + 1
  | 0, _, _, h => absurd h (Nat.not_lt_zero _)
  | fuel + 1, n, ds, h => by
    obtain ⟨hdig, hval⟩ := digitChar_digit (n % 10) (Nat.mod_lt _ (by decide))
    simp only [Nat.toDigitsCore]
    split
    · next h0 =>
      refine ⟨[Nat.digitChar (n % 10)], rfl, ⟨List.cons_ne_nil _ _, by simpa using hdig, ?_⟩,
        fun k _ => by simp⟩
      simp only [List.map, digitsValue, List.foldl]
      omega
    · next h0 =>
      obtain ⟨D, hD, hdec, hlen⟩ := toDigitsCore_decimal fuel (n / 10) _ (by omega)
      refine ⟨D ++ [Nat.digitChar (n % 10)], by rw [hD, List.append_assoc]; rfl,
        ⟨by simp, by simpa [or_imp, forall_and] using ⟨hdec.isDigit, hdig⟩, ?_⟩, fun k hk => ?_⟩
      · rw [List.map_append, List.map_singleton, digitsValue_append_singleton, hdec.value, hval]
        omega
      · cases k with
        | zero => omega
        | succ k =>
          have := hlen k (by rw [pow_succ] at hk; omega)
          simp only [List.length_append, List.length_singleton]
          omega

/-- `str(n)` is a decimal text of `n`, of at most `k + 1` digits when `n < 10 ^ (k + 1)`. -/
theorem decimal_toString (n : ℕ) :
    Decimal (toString n).toList n ∧ ∀ k, n < 10 ^ (k + 1) → (toString n).toList.length ≤ k + 1 :=
  let ⟨D, hD, hdec, hlen⟩ := toDigitsCore_decimal (n + 1) n [] (Nat.lt_succ_self n)
  have hs : (toString n).toList = D := hD.trans (List.append_nil D)
  hs ▸ ⟨hdec, hlen⟩

theorem not_mem_pySpaces {c : Char} (h : c.isDigit) : c ∉ pySpaces := by
  have hs : ∀ s ∈ pySpaces, s.isDigit = false := by decide
  exact fun hc => Bool.false_ne_true ((hs c hc).symm.trans h)

/-- Nothing is dropped before a leading digit. -/
theorem dropWhile_pySpaces {l : List Char} {c : Char} (hc : l.head? = some c) (hd : c.isDigit) :
    l.dropWhile (· ∈ pySpaces) = l := by
  cases l with
  | nil => cases hc
  | cons a l =>
    obtain rfl : a = c := Option.some.inj hc
    exact List.dropWhile_cons_of_neg (by simpa using not_mem_pySpaces hd)

/-- `strip()` keeps a text that starts and ends with a digit. -/
theorem pyStrip_of_digit_ends {l : List Char} {a b : Char} (ha : l.head? = some a)
    (hb : l.getLast? = some b) (hda : a.isDigit) (hdb : b.isDigit) : pyStrip l = l := by
  rw [pyStrip, dropWhile_pySpaces ha hda, dropWhile_pySpaces (by rwa [List.head?_reverse]) hdb,
    List.reverse_reverse]

theorem Decimal.head? {ds : List Char} {n : ℕ} (h : Decimal ds n) :
    ∃ c, ds.head? = some c ∧ c.isDigit := by
  obtain ⟨c, cs, rfl⟩ := List.exists_cons_of_ne_nil h.ne_nil
  exact ⟨c, rfl, h.isDigit c (List.mem_cons_self c cs)⟩

theorem Decimal.getLast? {ds : List Char} {n : ℕ} (h : Decimal ds n) :
    ∃ c, ds.getLast? = some c ∧ c.isDigit :=
  ⟨ds.getLast h.ne_nil, List.getLast?_eq_getLast ds h.ne_nil, h.isDigit _ (List.getLast_mem _)⟩

theorem Decimal.not_mem {ds : List Char} {n : ℕ} (h : Decimal ds n) (x : Char)
    (hx : x.isDigit = false) : x ∉ ds :=
  fun hm => Bool.false_ne_true (hx.symm.trans (h.isDigit x hm))

/-- An ASCII digit is a decimal digit of its own value. -/
theorem decimalValue_of_isDigit {c : Char} (h : c.isDigit) : decimalValue c = some (digitOf c) := by
  simp only [Char.isDigit, Bool.and_eq_true, decide_eq_true_eq] at h
  have h' : 48 ≤ c.toNat ∧ c.toNat ≤ 57 := ⟨h.1, h.2⟩
  unfold decimalValue
  rw [show decimalZeros = 0x30 :: decimalZeros.tail from rfl, List.find?_cons]
  simp only [h'.1, show c.toNat < 0x30 + 10 by omega, and_self, decide_True, Option.map_some']
  rfl

theorem mapM_decimalValue : ∀ {ds : List Char}, (∀ c ∈ ds, c.isDigit) →
    ds.mapM decimalValue = some (ds.map digitOf)
  | [], _ => rfl
  | c :: cs, h => by
    rw [List.mapM_cons, decimalValue_of_isDigit (h c (List.mem_cons_self c cs)),
      mapM_decimalValue fun d hd => h d (List.mem_cons_of_mem c hd)]
    rfl

/-- `int()` reads back a decimal text of at most `maxStrDigits` digits. -/
theorem pyInt_decimal {ds : List Char} {n : ℕ} (h : Decimal ds n)
    (hlen : ds.length ≤ maxStrDigits) : pyInt ds = some (n : ℤ) := by
  obtain ⟨a, ha, hda⟩ := h.head?
  obtain ⟨b, hb, hdb⟩ := h.getLast?
  have hsplit : ds.splitOn '_' = [ds] := by
    simpa [List.intercalate] using
      List.splitOn_intercalate [ds] '_' (by simpa using h.not_mem '_' rfl) (List.cons_ne_nil _ _)
  have hlit : literalDigits ds = some (ds.map digitOf) := by
    rw [literalDigits, if_pos (by simpa [hsplit] using h.ne_nil),
      List.filter_eq_self.mpr fun c hc => decide_eq_true (ne_of_mem_of_not_mem hc (h.not_mem '_' rfl)),
      mapM_decimalValue h.isDigit]
  have hint : intLiteral ds = some (false, ds.map digitOf) := by
    unfold intLiteral
    rw [pyStrip_of_digit_ends ha hb hda hdb]
    split
    · exact absurd (List.mem_cons_self _ _) (h.not_mem '-' rfl)
    · exact absurd (List.mem_cons_self _ _) (h.not_mem '+' rfl)
    · rw [hlit, Option.map_some']
  rw [pyInt, hint]
  dsimp only
  rw [if_neg (by simpa using hlen), h.value]
  rfl

/-! ### The joined text -/

theorem intercalate_cons_cons {α : Type} (sep a b : List α) (l : List (List α)) :
    sep.intercalate (a :: b :: l) = a ++ sep ++ sep.intercalate (b :: l) := by
  simp [List.intercalate]

theorem intercalate_cons_append {α : Type} (sep a b : List α) :
    ∀ l : List (List α), sep.intercalate ((a ++ b) :: l) = a ++ sep.intercalate (b :: l)
  | [] => by simp [List.intercalate]
  | c :: l => by simp [intercalate_cons_cons]

theorem toList_intercalateGo (s : String) : ∀ (acc : String) (as : List String),
    (String.intercalate.go acc s as).toList = s.toList.intercalate (acc.toList :: as.map String.toList)
  | acc, [] => by simp [String.intercalate.go, List.intercalate]
  | acc, a :: as => by
    rw [String.intercalate.go, toList_intercalateGo s _ as, List.map_cons, intercalate_cons_cons]
    exact intercalate_cons_append _ (acc.toList ++ s.toList) _ _

/-- `sep.join(parts)`, character by character. -/
theorem toList_intercalate (s a : String) (as : List String) :
    (s.intercalate (a :: as)).toList = s.toList.intercalate ((a :: as).map String.toList) :=
  toList_intercalateGo s a as

/-- The last character of a joined text is the last character of its last part. -/
theorem getLast?_intercalate (sep : List Char) : ∀ (a : List Char) (l : List (List Char)),
    (∀ d ∈ a :: l, d ≠ []) →
      (sep.intercalate (a :: l)).getLast? = ((a :: l).getLast (List.cons_ne_nil _ _)).getLast?
  | a, [], _ => by simp [List.intercalate]
  | a, b :: l, h => by
    have hlast := h _ (List.mem_cons_of_mem _ (List.getLast_mem (List.cons_ne_nil b l)))
    rw [intercalate_cons_cons, List.getLast?_append,
      getLast?_intercalate sep b l fun d hd => h d (List.mem_cons_of_mem _ hd),
      List.getLast_cons_cons, List.getLast?_eq_getLast _ hlast]
    rfl

/-- Removing the spaces of a joined text whose parts have none removes those of the
separator. -/
theorem filter_intercalate {sep : List Char} (p : Char → Bool) : ∀ (a : List Char)
    (l : List (List Char)), (∀ d ∈ a :: l, ∀ c ∈ d, p c) →
      (sep.intercalate (a :: l)).filter p = (sep.filter p).intercalate (a :: l)
  | a, [], h => by simpa [List.intercalate] using h
  | a, b :: l, h => by
    rw [intercalate_cons_cons, intercalate_cons_cons, List.filter_append, List.filter_append,
      List.filter_eq_self.mpr (h a (List.mem_cons_self _ _)),
      filter_intercalate p b l fun d hd => h d (List.mem_cons_of_mem _ hd)]

theorem head?_intercalate {sep a : List Char} (l : List (List Char)) (ha : a ≠ []) :
    (sep.intercalate (a :: l)).head? = a.head? := by
  obtain ⟨c, cs, rfl⟩ := List.exists_cons_of_ne_nil ha
  cases l with
  | nil => simp [List.intercalate]
  | cons b l => simp [intercalate_cons_cons]

/-- The parts of the echo are the decimal texts of the wallet numbers. -/
theorem selectionParts_echo (i : ℕ) (rest : List ℕ) :
    selectionParts (", ".intercalate ((i :: rest).map fun j => toString (j + 1))) =
      (i :: rest).map fun j => (toString (j + 1)).toList := by
  have hdec : ∀ d ∈ (i :: rest).map fun j => (toString (j + 1)).toList, ∃ n, Decimal d n :=
    fun d hd => let ⟨j, _, hj⟩ := List.mem_map.mp hd; ⟨j + 1, hj ▸ (decimal_toString (j + 1)).1⟩
  have hne : ∀ d ∈ (i :: rest).map fun j => (toString (j + 1)).toList, d ≠ [] :=
    fun d hd => (hdec d hd).elim fun _ h => h.ne_nil
  simp only [List.map_cons] at hdec hne ⊢
  obtain ⟨a, ha, hda⟩ := (decimal_toString (i + 1)).1.head?
  obtain ⟨n, hn⟩ := hdec _ (List.getLast_mem (List.cons_ne_nil _ _))
  obtain ⟨b, hb, hdb⟩ := hn.getLast?
  unfold selectionParts
  rw [toList_intercalate, List.map_cons, List.map_map, Function.comp_def]
  rw [show (", ".toList : List Char) = [',', ' '] from rfl,
    pyStrip_of_digit_ends ((head?_intercalate _ (hne _ (List.mem_cons_self _ _))).trans ha)
      ((getLast?_intercalate _ _ _ hne).trans hb) hda hdb,
    filter_intercalate (fun c => decide (c ≠ ' ')) _ _ fun d hd c hc =>
      decide_eq_true fun hsp => (hdec d hd).elim fun _ h => h.not_mem ' ' rfl (hsp ▸ hc)]
  exact List.splitOn_intercalate _ ',' (fun d hd => (hdec d hd).elim fun _ h => h.not_mem ',' rfl)
    (List.cons_ne_nil _ _)

/-- A decimal part selects its own number, when that is a wallet number. -/
theorem partSelects_decimal (total : ℕ) {ds : List Char} {m : ℕ} (hd : Decimal ds m)
    (hlen : ds.length ≤ maxStrDigits) (n : ℕ) :
    PartSelects total ds n ↔ n = m ∧ 1 ≤ n ∧ n ≤ total := by
  rw [partSelects_single (hd.not_mem '-' rfl), pyInt_decimal hd hlen, Option.some.injEq,
    Int.ofNat_inj, eq_comm]

/-- A wallet number below `10 ^ maxStrDigits` has a text `int()` converts. -/
theorem toString_length_le {n : ℕ} (hn : n < 10 ^ maxStrDigits) :
    (toString n).toList.length ≤ maxStrDigits :=
  have h : maxStrDigits = 4299 + 1 := rfl
  h ▸ (decimal_toString n).2 4299 (h ▸ hn)

/-! ### The round trip -/

/-- **The echo reads back.** For every strictly increasing list of indices below
`total_wallets < 10 ** 4300`, every run of `parse_wallet_selection` on
`', '.join(str(i + 1) for i in selected)` returns `selected`: it raises nothing, and every
part selects exactly the wallet it was printed from. -/
theorem parseWalletSelection_echo (total : ℕ) (hbound : total < 10 ^ maxStrDigits)
    (selected : List ℕ) (hsorted : selected.Sorted (· < ·)) (hlt : ∀ i ∈ selected, i < total)
    (env : Env) (h : List Event) :
    (parseWalletSelection (", ".intercalate (selected.map fun i => toString (i + 1))) total
      env h).1 = .ok selected := by
  cases selected with
  | nil => rfl
  | cons i rest =>
    have hparts := selectionParts_echo i rest
    obtain ⟨idx, hidx⟩ := (parseWalletSelection_returns_iff _ total).1 (fun part hpart => by
      rw [hparts] at hpart
      obtain ⟨j, -, rfl⟩ := List.mem_map.mp hpart
      rw [partParses, if_neg ((decimal_toString (j + 1)).1.not_mem '-' rfl)]) env h
    obtain ⟨hsorted', hmem, -⟩ := parseWalletSelection_selects _ total env h idx hidx
    refine hidx.trans (congrArg _ (List.eq_of_perm_of_sorted ((List.perm_ext_iff_of_nodup
      hsorted'.nodup hsorted.nodup).2 fun k => ?_) hsorted' hsorted))
    rw [hmem, hparts]
    constructor
    · rintro ⟨_, hpart, hsel⟩
      obtain ⟨j, hj, rfl⟩ := List.mem_map.mp hpart
      obtain ⟨he, -⟩ := (partSelects_decimal total (decimal_toString _).1
        (toString_length_le (by have := hlt j hj; omega)) _).mp hsel
      rwa [show k = j by omega]
    · exact fun hk => ⟨_, List.mem_map_of_mem _ hk, (partSelects_decimal total
        (decimal_toString _).1 (toString_length_le (by have := hlt k hk; omega)) _).mpr
          ⟨rfl, by omega, hlt k hk⟩⟩

/-- Wallets 1 and 12 of twelve, echoed as `1, 12`, read back. -/
theorem parseWalletSelection_echo_first_last : 12 < 10 ^ maxStrDigits ∧ [0, 11].Sorted (· < ·) ∧
    (∀ i ∈ [0, 11], i < 12) ∧
    ∀ env h, (parseWalletSelection (", ".intercalate ([0, 11].map fun i => toString (i + 1))) 12
      env h).1 = .ok [0, 11] :=
  have h12 : 12 < 10 ^ maxStrDigits :=
    (Nat.lt_pow_self (by decide) 12).trans_le (Nat.pow_le_pow_right (by decide) (by decide))
  ⟨h12, by decide, by decide, parseWalletSelection_echo 12 h12 [0, 11] (by decide) (by decide)⟩

end TempoSpammer

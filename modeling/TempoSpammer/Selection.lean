import TempoSpammer.Pipeline
import Mathlib.Data.List.Sort

/-! # Wallet selection

`parse_wallet_selection(input_str, total_wallets)` strips the input, removes its spaces,
splits it at commas, and adds to a set the wallet numbers of each part: a part with a
`'-'` is a range `start-end`, unpacked from `map(int, part.split('-'))` and skipped with a
warning when out of bounds; another part is one number, skipped with a warning when out
of bounds or when `int()` rejects it.  The result is `sorted([n - 1 for n in selected])`.

`int()` is `pyInt`: surrounding whitespace (`str.isspace`), an optional sign, and the
decimal digits of any script (`decimalValue`) with single underscores between them, at most
`maxStrDigits` of them.  An exception of the range branch is not caught: it leaves the
function.

`parseWalletSelection_indices` is the loop invariant at the level of the result: every
number added lies in `[1, total_wallets]` and the set has no duplicates, so the indices
returned are strictly increasing and below `total_wallets`.

`PartSelects` says, apart from the loop, which numbers a part selects; `selectParts_mem`
characterises the set the loop builds part by part, and `parseWalletSelection_selects`
reads the result against it.  `partParses` is the condition under which a part does not
raise: `parseWalletSelection_returns_iff` shows that the parser returns on every run when
every part meets it, and raises `ValueError` (`RaisesValueError`) on every run otherwise. -/

namespace TempoSpammer

/-- The characters for which `str.isspace()` holds. -/
def pySpaces : List Char :=
  ['\t', '\n', '\x0b', '\x0c', '\r', '\x1c', '\x1d', '\x1e', '\x1f', ' ', '\x85', '\xa0',
    ' ', ' ', ' ', ' ', ' ', ' ', ' ', ' ', ' ',
    ' ', ' ', ' ', ' ', ' ', ' ', ' ', '　']

/-- `str.strip()`. -/
def pyStrip (s : List Char) : List Char :=
  ((s.dropWhile (· ∈ pySpaces)).reverse.dropWhile (· ∈ pySpaces)).reverse

/-- The first code points of the runs of ten decimal digits (`str.isdecimal`) of Unicode 15,
the character database of Python 3.12 and 3.13. -/
def decimalZeros : List ℕ :=
  [0x30, 0x660, 0x6F0, 0x7C0, 0x966, 0x9E6, 0xA66, 0xAE6, 0xB66, 0xBE6, 0xC66, 0xCE6,
    0xD66, 0xDE6, 0xE50, 0xED0, 0xF20, 0x1040, 0x1090, 0x17E0, 0x1810, 0x1946, 0x19D0,
    0x1A80, 0x1A90, 0x1B50, 0x1BB0, 0x1C40, 0x1C50, 0xA620, 0xA8D0, 0xA900, 0xA9D0, 0xA9F0,
    0xAA50, 0xABF0, 0xFF10, 0x104A0, 0x10D30, 0x11066, 0x110F0, 0x11136, 0x111D0, 0x112F0,
    0x11450, 0x114D0, 0x11650, 0x116C0, 0x11730, 0x118E0, 0x11950, 0x11C50, 0x11D50,
    0x11DA0, 0x11F50, 0x16A60, 0x16AC0, 0x16B50, 0x1D7CE, 0x1D7D8, 0x1D7E2, 0x1D7EC,
    0x1D7F6, 0x1E140, 0x1E2F0, 0x1E4F0, 0x1E950, 0x1FBF0]

/-- `unicodedata.decimal(c)`: the value of a decimal digit of any script. -/
def decimalValue (c : Char) : Option ℕ :=
  (decimalZeros.find? fun z => z ≤ c.toNat ∧ c.toNat < z + 10).map (c.toNat - ·)

/-- The digit values of an integer literal: groups of decimal digits separated by single
underscores, with no underscore at either end. -/
def literalDigits (body : List Char) : Option (List ℕ) :=
  if (body.splitOn '_').all (!·.isEmpty) then (body.filter (· ≠ '_')).mapM decimalValue
  else none

/-- The value of a list of decimal digit values. -/
def digitsValue (ds : List ℕ) : ℕ := ds.foldl (fun n d => 10 * n + d) 0

/-- `sys.get_int_max_str_digits()`: `int()` of a `str` refuses more digits than this. -/
def maxStrDigits : ℕ := 4300

/-- The literal `int()` reads from `s`, after `strip()`: its sign (`true` for `'-'`) and
its digit values; `none` when `s` is not one. -/
def intLiteral (s : List Char) : Option (Bool × List ℕ) :=
  match pyStrip s with
  | '-' :: body => (literalDigits body).map (true, ·)
  | '+' :: body => (literalDigits body).map (false, ·)
  | body => (literalDigits body).map (false, ·)

/-- `int(s)` for a `str`, in base 10; `none` where it raises `ValueError`: `s` is not a
literal, or it has more than `maxStrDigits` digits. -/
def pyInt (s : List Char) : Option ℤ :=
  match intLiteral s with
  | some (neg, ds) =>
      if maxStrDigits < ds.length then none
      else some (if neg then -(digitsValue ds : ℤ) else digitsValue ds)
  | none => none

/-- The message of the `ValueError` of `int(s)`, with `repr(s)` written with single
quotes. -/
def intErrorMessage (s : List Char) : String :=
  match intLiteral s with
  | some (_, ds) => "Exceeds the limit (" ++ toString maxStrDigits ++
      " digits) for integer string conversion: value has " ++ toString ds.length ++
      " digits; use sys.set_int_max_str_digits() to increase the limit"
  | none => "invalid literal for int() with base 10: '" ++ String.mk s ++ "'"

/-- `int(s)`, raising `ValueError` where `pyInt` has no value. -/
def intOrRaise (s : List Char) : Web3 ℤ :=
  match pyInt s with
  | some n => pure n
  | none => Web3.raise ⟨.valueError, intErrorMessage s⟩

/-- `start, end = map(int, pieces)`: each piece is converted when the unpacking reaches
it, and a third piece is converted before the unpacking fails. -/
def unpackRange : List (List Char) → Web3 (ℤ × ℤ)
  | [] => Web3.raise ⟨.valueError, "not enough values to unpack (expected 2, got 0)"⟩
  | [a] => do
      let _ ← intOrRaise a
      Web3.raise ⟨.valueError, "not enough values to unpack (expected 2, got 1)"⟩
  | [a, b] => do
      let start ← intOrRaise a
      let stop ← intOrRaise b
      pure (start, stop)
  | a :: b :: c :: _ => do
      let _ ← intOrRaise a
      let _ ← intOrRaise b
      let _ ← intOrRaise c
      Web3.raise ⟨.valueError, "too many values to unpack (expected 2)"⟩

/-- `for i in range(start, end + 1): selected.add(i)`. -/
def addRange (start stop : ℕ) (selected : List ℕ) : List ℕ :=
  (List.range' start (stop + 1 - start)).foldl (fun s i => s.insert i) selected

/-- The loop over the parts, from the set `selected` built so far. -/
def selectParts (totalWallets : ℕ) : List (List Char) → List ℕ → Web3 (List ℕ)
  | [], selected => pure selected
  | part :: rest, selected =>
      if '-' ∈ part then do
        let (start, stop) ← unpackRange (part.splitOn '-')
        if start < 1 ∨ (totalWallets : ℤ) < stop ∨ stop < start then do
          Web3.print ("\x1b[1m\x1b[31m⚠️ Range out of bounds: " ++ String.mk part ++
            " (available 1-" ++ toString totalWallets ++ ")\x1b[0m")
          selectParts totalWallets rest selected
        else selectParts totalWallets rest (addRange start.toNat stop.toNat selected)
      else do
        let selected ← Web3.tryCatchWhen
          (do
            let num ← intOrRaise part
            if num < 1 ∨ (totalWallets : ℤ) < num then do
              Web3.print ("\x1b[1m\x1b[31m⚠️ Index out of bounds: " ++ toString num ++
                " (available 1-" ++ toString totalWallets ++ ")\x1b[0m")
              pure selected
            else pure (selected.insert num.toNat))
          (fun e => e.kind = .valueError)
          (fun _ => do
            Web3.print ("\x1b[1m\x1b[31m⚠️ Invalid number: " ++ String.mk part ++ "\x1b[0m")
            pure selected)
        selectParts totalWallets rest selected

/-- `parse_wallet_selection(input_str, total_wallets)`. -/
def parseWalletSelection (inputStr : String) (totalWallets : ℕ) : Web3 (List ℕ) := do
  let s := (pyStrip inputStr.toList).filter (· ≠ ' ')
  let selected ← selectParts totalWallets (s.splitOn ',') []
  pure ((selected.map (· - 1)).insertionSort (· ≤ ·))

/-! ### The indices are strictly increasing and in range -/

/-- The invariant of the set: no duplicates, every number in `[1, total]`. -/
def SelectedOk (total : ℕ) (selected : List ℕ) : Prop :=
  selected.Nodup ∧ ∀ n ∈ selected, 1 ≤ n ∧ n ≤ total

theorem SelectedOk.insert {total n : ℕ} {selected : List ℕ} (h : SelectedOk total selected)
    (h₁ : 1 ≤ n) (h₂ : n ≤ total) : SelectedOk total (selected.insert n) :=
  ⟨h.1.insert, fun m hm => by
    rcases List.mem_insert_iff.mp hm with rfl | hm
    exacts [⟨h₁, h₂⟩, h.2 m hm]⟩

theorem SelectedOk.insertAll {total : ℕ} :
    ∀ (is : List ℕ) {selected : List ℕ}, SelectedOk total selected →
      (∀ i ∈ is, 1 ≤ i ∧ i ≤ total) →
      SelectedOk total (is.foldl (fun s i => s.insert i) selected)
  | [], _, h, _ => h
  | i :: is, _, h, his => by
      have hi := his i (List.mem_cons_self i is)
      exact insertAll is (h.insert hi.1 hi.2) fun j hj => his j (List.mem_cons_of_mem i hj)

theorem SelectedOk.addRange {total start stop : ℕ} {selected : List ℕ}
    (h : SelectedOk total selected) (h₁ : 1 ≤ start) (h₂ : stop ≤ total) :
    SelectedOk total (addRange start stop selected) :=
  h.insertAll _ fun i hi => by
    rw [List.mem_range'_1] at hi
    omega

theorem selectParts_ok (total : ℕ) : ∀ (parts : List (List Char)) (selected : List ℕ),
    SelectedOk total selected → Returns (selectParts total parts selected) (SelectedOk total)
  | [], _, h => Returns.pure h
  | part :: rest, selected, h => by
      unfold selectParts
      split
      · refine (Returns.of_forall _ fun _ => trivial).bind fun ⟨start, stop⟩ _ => ?_
        dsimp only
        split
        · exact (Returns.of_forall _ fun _ => trivial).bind fun _ _ =>
            selectParts_ok total rest selected h
        · next hb =>
          exact selectParts_ok total rest _ (h.addRange (by omega) (by omega))
      · refine Returns.bind (P := SelectedOk total) ?_ fun s hs => selectParts_ok total rest s hs
        refine Returns.tryCatch ((Returns.of_forall _ fun _ => trivial).bind fun num _ => ?_)
          fun e => ?_
        · split
          · exact (Returns.of_forall _ fun _ => trivial).bind fun _ _ => Returns.pure h
          · next hb => exact Returns.pure (h.insert (by omega) (by omega))
        · split
          · exact (Returns.of_forall _ fun _ => trivial).bind fun _ _ => Returns.pure h
          · rintro _ _ _ ⟨⟩

/-- **The selected indices.** Whenever `parse_wallet_selection` returns, its indices are
strictly increasing and below `total_wallets`. -/
theorem parseWalletSelection_indices (inputStr : String) (total : ℕ) :
    Returns (parseWalletSelection inputStr total) fun idx =>
      idx.Sorted (· < ·) ∧ ∀ i ∈ idx, i < total := by
  refine (selectParts_ok total _ [] ⟨List.nodup_nil, by simp⟩).bind fun sel hsel =>
    Returns.pure ⟨?_, fun i hi => ?_⟩
  · have hnd : (sel.map (· - 1)).Nodup := hsel.1.map_on fun x hx y hy hxy => by
      have := (hsel.2 x hx).1
      have := (hsel.2 y hy).1
      omega
    exact (List.sorted_insertionSort _ _).lt_of_le
      ((List.perm_insertionSort _ _).nodup_iff.mpr hnd)
  · obtain ⟨n, hn, rfl⟩ := List.mem_map.mp ((List.perm_insertionSort _ _).mem_iff.mp hi)
    have := hsel.2 n hn
    omega

/-! ### What the parts select -/

/-- The parts of the selection: the input stripped, without its spaces, split at
commas. -/
def selectionParts (inputStr : String) : List (List Char) :=
  ((pyStrip inputStr.toList).filter (· ≠ ' ')).splitOn ','

theorem parseWalletSelection_eq (inputStr : String) (total : ℕ) :
    parseWalletSelection inputStr total = selectParts total (selectionParts inputStr) [] >>=
      fun selected => pure ((selected.map (· - 1)).insertionSort (· ≤ ·)) := rfl

/-- The numbers a part names, in the words of the contract: a part without `'-'` names
the number `int()` reads from it when that lies in `[1, total]`; a range `a-b` names every
number from `a` to `b` when `int()` reads both and `1 ≤ a ≤ b ≤ total`. -/
def PartSelects (total : ℕ) (part : List Char) (n : ℕ) : Prop :=
  ('-' ∉ part ∧ pyInt part = some (n : ℤ) ∧ 1 ≤ n ∧ n ≤ total) ∨
    ('-' ∈ part ∧ ∃ (sa sb : List Char) (a b : ℤ), part.splitOn '-' = [sa, sb] ∧ pyInt sa = some a ∧
      pyInt sb = some b ∧ 1 ≤ a ∧ a ≤ b ∧ b ≤ total ∧ a ≤ n ∧ (n : ℤ) ≤ b)

theorem partSelects_single {total : ℕ} {part : List Char} (hdash : '-' ∉ part) (n : ℕ) :
    PartSelects total part n ↔ pyInt part = some (n : ℤ) ∧ 1 ≤ n ∧ n ≤ total := by
  simp [PartSelects, hdash]

theorem partSelects_range (total : ℕ) {part sa sb : List Char} {a b : ℤ} (hdash : '-' ∈ part)
    (hsplit : part.splitOn '-' = [sa, sb]) (ha : pyInt sa = some a) (hb : pyInt sb = some b)
    (n : ℕ) : PartSelects total part n ↔ 1 ≤ a ∧ a ≤ b ∧ b ≤ total ∧ a ≤ n ∧ (n : ℤ) ≤ b := by
  unfold PartSelects
  rw [hsplit]
  constructor
  · rintro (⟨hnd, -⟩ | ⟨-, sa', sb', a', b', hs, ha', hb', h⟩)
    · exact absurd hdash hnd
    · obtain ⟨rfl, rfl⟩ : sa = sa' ∧ sb = sb' := by simpa using hs
      rw [ha, Option.some.injEq] at ha'
      rw [hb, Option.some.injEq] at hb'
      subst ha' hb'
      exact h
  · exact fun h => .inr ⟨hdash, sa, sb, a, b, rfl, ha, hb, h⟩

theorem intOrRaise_returns (s : List Char) : Returns (intOrRaise s) fun n => pyInt s = some n := by
  unfold intOrRaise
  split
  · next n hn => exact Returns.pure hn
  · exact Returns.raise _

theorem unpackRange_returns : ∀ pieces : List (List Char), Returns (unpackRange pieces)
    fun r => ∃ sa sb, pieces = [sa, sb] ∧ pyInt sa = some r.1 ∧ pyInt sb = some r.2
  | [] => Returns.raise _
  | [_] => Returns.bind_right fun _ => Returns.raise _
  | [sa, sb] => (intOrRaise_returns sa).bind fun _ ha => (intOrRaise_returns sb).bind
      fun _ hb => Returns.pure ⟨sa, sb, rfl, ha, hb⟩
  | _ :: _ :: _ :: _ => Returns.bind_right fun _ => Returns.bind_right fun _ =>
      Returns.bind_right fun _ => Returns.raise _

theorem mem_foldl_insert (n : ℕ) : ∀ is selected : List ℕ,
    n ∈ is.foldl (fun s i => s.insert i) selected ↔ n ∈ selected ∨ n ∈ is
  | [], _ => by simp
  | i :: is, selected => by
    rw [List.foldl_cons, mem_foldl_insert n is, List.mem_insert_iff, List.mem_cons]
    tauto

theorem mem_addRange {n start stop : ℕ} {selected : List ℕ} :
    n ∈ addRange start stop selected ↔ n ∈ selected ∨ (start ≤ n ∧ n ≤ stop) := by
  rw [addRange, mem_foldl_insert, List.mem_range'_1]
  exact or_congr_right ⟨fun h => ⟨h.1, by omega⟩, fun h => ⟨h.1, by omega⟩⟩

/-- **What the loop adds.** A number is in the set the loop returns exactly when it was
in the set before or a part of the input selects it. -/
theorem selectParts_mem (total : ℕ) : ∀ (parts : List (List Char)) (selected : List ℕ),
    Returns (selectParts total parts selected) fun sel =>
      ∀ n, n ∈ sel ↔ n ∈ selected ∨ ∃ part ∈ parts, PartSelects total part n
  | [], _ => Returns.pure fun n => by simp
  | part :: rest, selected => by
    have step : ∀ s, (∀ n, n ∈ s ↔ n ∈ selected ∨ PartSelects total part n) →
        Returns (selectParts total rest s) fun sel => ∀ n, n ∈ sel ↔ n ∈ selected ∨
          ∃ part' ∈ part :: rest, PartSelects total part' n := fun s hs =>
      (selectParts_mem total rest s).mono fun sel hsel n => by
        rw [hsel, hs]
        simp only [List.mem_cons, or_and_right, exists_or, exists_eq_left, or_assoc]
    unfold selectParts
    split
    · next hdash =>
      refine (unpackRange_returns _).bind fun ⟨start, stop⟩ ⟨sa, sb, hsplit, ha, hb⟩ => ?_
      have hsel := partSelects_range total hdash hsplit ha hb
      dsimp only
      split
      · next hbad =>
        exact Returns.bind_right fun _ => step selected fun n => by
          rw [hsel n]
          exact ⟨Or.inl, fun h => h.resolve_right fun h' => by omega⟩
      · next hgood =>
        exact step _ fun n => by
          rw [mem_addRange, hsel n]
          exact or_congr_right ⟨fun h => by omega, fun h => by omega⟩
    · next hdash =>
      refine Returns.bind ?_ step
      unfold Web3.tryCatchWhen intOrRaise
      cases hp : pyInt part with
      | none =>
        refine Returns.tryCatch (Returns.raise _) fun e => ?_
        split
        · exact Returns.bind_right fun _ => Returns.pure fun n => by
            simp [partSelects_single hdash, hp]
        · rintro _ _ _ ⟨⟩
      | some num =>
        simp only [Web3.pure_bind]
        split
        · next hbad =>
          rw [Web3.tryCatch_of_total ((Total.print _).bind fun _ => Total.pure _)]
          exact Returns.bind_right fun _ => Returns.pure fun n => by
            rw [partSelects_single hdash, hp, Option.some.injEq]
            exact ⟨Or.inl, fun h => h.resolve_right fun h' => by omega⟩
        · next hgood =>
          rw [Web3.tryCatch_of_total (Total.pure _)]
          exact Returns.pure fun n => by
            rw [List.mem_insert_iff, partSelects_single hdash, hp, Option.some.injEq, or_comm]
            exact or_congr_right ⟨fun h => by omega, fun h => by omega⟩

/-- **The selection, as the contract states it.** Whenever `parse_wallet_selection`
returns, its result is the strictly increasing list of `n - 1` over exactly the numbers
`n` that a part of the input selects, each below `total_wallets`. -/
theorem parseWalletSelection_selects (inputStr : String) (total : ℕ) :
    Returns (parseWalletSelection inputStr total) fun idx => idx.Sorted (· < ·) ∧
      (∀ i, i ∈ idx ↔ ∃ part ∈ selectionParts inputStr, PartSelects total part (i + 1)) ∧
      ∀ i ∈ idx, i < total := by
  have hok : Returns (selectParts total (selectionParts inputStr) []) fun sel =>
      SelectedOk total sel ∧ ∀ n, n ∈ sel ↔ n ∈ ([] : List ℕ) ∨ ∃ part ∈ selectionParts inputStr,
        PartSelects total part n := fun env h a ha =>
    ⟨selectParts_ok total _ [] ⟨List.nodup_nil, by simp⟩ env h a ha,
      selectParts_mem total _ [] env h a ha⟩
  refine fun env h idx hidx => ⟨(parseWalletSelection_indices inputStr total env h idx hidx).1,
    fun i => ?_, (parseWalletSelection_indices inputStr total env h idx hidx).2⟩
  rw [parseWalletSelection_eq] at hidx
  exact (hok.bind fun sel hsel => Returns.pure (P := fun idx => i ∈ idx ↔ _) (by
    dsimp only
    rw [(List.perm_insertionSort _ _).mem_iff, List.mem_map]
    constructor
    · rintro ⟨n, hn, rfl⟩
      have := (hsel.1.2 n hn).1
      rw [Nat.sub_add_cancel this]
      simpa using (hsel.2 n).mp hn
    · intro hp
      exact ⟨i + 1, (hsel.2 _).mpr (.inr hp), rfl⟩)) env h idx hidx

/-! ### When the parser returns -/

/-- Every run of `m` raises a `ValueError`. -/
def RaisesValueError {α : Type} (m : Web3 α) : Prop :=
  ∀ env h, ∃ msg, (m env h).1 = .error ⟨.valueError, msg⟩

namespace RaisesValueError

variable {α β : Type} {m : Web3 α} {f : α → Web3 β}

theorem raise (msg : String) : RaisesValueError (Web3.raise ⟨.valueError, msg⟩ : Web3 α) :=
  fun _ _ => ⟨msg, rfl⟩

theorem bind (hm : RaisesValueError m) (f : α → Web3 β) : RaisesValueError (m >>= f) := by
  intro env h
  obtain ⟨msg, hmsg⟩ := hm env h
  exact ⟨msg, by rw [Web3.bind_apply_error hmsg]⟩

theorem total_bind (hm : Total m) (hf : ∀ a, RaisesValueError (f a)) :
    RaisesValueError (m >>= f) := by
  intro env h
  obtain ⟨a, ha⟩ := hm env h
  obtain ⟨msg, hmsg⟩ := hf a env (h ++ (m env h).2)
  exact ⟨msg, by rw [Web3.bind_apply_ok ha]; exact hmsg⟩

/-- After an exception nothing more runs: the events are those of `m`. -/
theorem bind_events (hm : RaisesValueError m) (f : α → Web3 β) (env : Env) (h : List Event) :
    ((m >>= f) env h).2 = (m env h).2 := by
  obtain ⟨msg, hmsg⟩ := hm env h
  rw [Web3.bind_apply_error hmsg]

/-- `int(s)` followed by a step that raises: the conversion raises, or the step does. -/
theorem intOrRaise_bind (s : List Char) {f : ℤ → Web3 β} (hf : ∀ n, RaisesValueError (f n)) :
    RaisesValueError (intOrRaise s >>= f) := by
  unfold intOrRaise
  split
  · rw [Web3.pure_bind]
    exact hf _
  · exact (raise _).bind f

end RaisesValueError

/-- The pieces of a range that `map(int, ...)` unpacks: exactly two, both integers. -/
def rangeParses : List (List Char) → Bool
  | [sa, sb] => (pyInt sa).isSome && (pyInt sb).isSome
  | _ => false

/-- A part that the loop gets through: one without `'-'`, or a range whose two pieces
`int()` reads. -/
def partParses (part : List Char) : Bool :=
  if '-' ∈ part then rangeParses (part.splitOn '-') else true

theorem intOrRaise_total {s : List Char} (h : (pyInt s).isSome) : Total (intOrRaise s) := by
  unfold intOrRaise
  split
  · exact Total.pure _
  · next hn => simp [hn] at h

theorem unpackRange_total : ∀ {pieces : List (List Char)}, rangeParses pieces →
    Total (unpackRange pieces)
  | [_, _], h => by
    simp only [rangeParses, Bool.and_eq_true] at h
    exact (intOrRaise_total h.1).bind fun _ => (intOrRaise_total h.2).bind fun _ => Total.pure _

theorem intOrRaise_raises {s : List Char} (h : pyInt s = none) :
    RaisesValueError (intOrRaise s) := by
  unfold intOrRaise
  rw [h]
  exact .raise _

theorem unpackRange_raises : ∀ {pieces : List (List Char)}, rangeParses pieces = false →
    RaisesValueError (unpackRange pieces)
  | [], _ => .raise _
  | [a], _ => .intOrRaise_bind a fun _ => .raise _
  | [a, b], h => by
    cases ha : pyInt a with
    | none => exact (intOrRaise_raises ha).bind _
    | some x =>
      have hb : pyInt b = none := by simpa [rangeParses, ha] using h
      exact .total_bind (intOrRaise_total (by rw [ha]; rfl)) fun _ => (intOrRaise_raises hb).bind _
  | a :: b :: c :: _, _ => .intOrRaise_bind a fun _ => .intOrRaise_bind b fun _ =>
      .intOrRaise_bind c fun _ => .raise _

/-- `try: int(part) ... except ValueError:` returns whenever the steps after the conversion
and the handler return. -/
theorem Total.tryCatchWhen_intOrRaise {α : Type} (s : List Char) {k : ℤ → Web3 α}
    {handler : Err → Web3 α} (hk : ∀ n, Total (k n)) (hh : ∀ e, Total (handler e)) :
    Total (Web3.tryCatchWhen (intOrRaise s >>= k) (fun e => e.kind = .valueError) handler) := by
  unfold Web3.tryCatchWhen intOrRaise
  split
  · rw [Web3.pure_bind, Web3.tryCatch_of_total (hk _)]
    exact hk _
  · exact fun env h => hh _ env _

/-- **The loop returns** when every part gets through. -/
theorem selectParts_total (total : ℕ) : ∀ (parts : List (List Char)) (selected : List ℕ),
    (∀ part ∈ parts, partParses part) → Total (selectParts total parts selected)
  | [], _, _ => Total.pure _
  | part :: rest, selected, h => by
    have hrest := fun s => selectParts_total total rest s fun p hp => h p (List.mem_cons_of_mem _ hp)
    have hpart := h part (List.mem_cons_self _ _)
    unfold selectParts
    split
    · next hdash =>
      rw [partParses, if_pos hdash] at hpart
      refine (unpackRange_total hpart).bind fun ⟨start, stop⟩ => ?_
      dsimp only
      split
      exacts [(Total.print _).bind fun _ => hrest _, hrest _]
    · exact (Total.tryCatchWhen_intOrRaise part (fun _ => by
        split
        exacts [(Total.print _).bind fun _ => Total.pure _, Total.pure _])
        fun _ => (Total.print _).bind fun _ => Total.pure _).bind hrest

/-- **The loop raises** at the first range that does not get through. -/
theorem selectParts_raises (total : ℕ) : ∀ (parts : List (List Char)) (selected : List ℕ),
    (∃ part ∈ parts, partParses part = false) → RaisesValueError (selectParts total parts selected)
  | [], _, ⟨_, h, _⟩ => absurd h (List.not_mem_nil _)
  | part :: rest, selected, ⟨bad, hbad, hparse⟩ => by
    unfold selectParts
    by_cases hpart : partParses part
    · have hrest := fun s => selectParts_raises total rest s
        ⟨bad, (List.mem_cons.mp hbad).resolve_left (by rintro rfl; simp_all), hparse⟩
      split
      · next hdash =>
        rw [partParses, if_pos hdash] at hpart
        refine .total_bind (unpackRange_total hpart) fun ⟨start, stop⟩ => ?_
        dsimp only
        split
        exacts [.total_bind (Total.print _) fun _ => hrest _, hrest _]
      · exact .total_bind (Total.tryCatchWhen_intOrRaise part (fun _ => by
          split
          exacts [(Total.print _).bind fun _ => Total.pure _, Total.pure _])
          fun _ => (Total.print _).bind fun _ => Total.pure _) hrest
    · have hdash : '-' ∈ part := by
        by_contra hd
        simp [partParses, hd] at hpart
      rw [partParses, if_pos hdash, Bool.not_eq_true] at hpart
      rw [if_pos hdash]
      exact (unpackRange_raises hpart).bind _

/-- **When the parser returns.** `parse_wallet_selection` returns exactly when every part
gets through; otherwise it raises `ValueError`. -/
theorem parseWalletSelection_returns_iff (inputStr : String) (total : ℕ) :
    ((∀ part ∈ selectionParts inputStr, partParses part) →
        Total (parseWalletSelection inputStr total)) ∧
      ((∃ part ∈ selectionParts inputStr, partParses part = false) →
        RaisesValueError (parseWalletSelection inputStr total)) :=
  ⟨fun h => (selectParts_total total _ [] h).bind fun _ => Total.pure _,
    fun h => (selectParts_raises total _ [] h).bind _⟩

end TempoSpammer

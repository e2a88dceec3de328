/-
The generator of the allow list, `unicode-generator.c`: the case labels that
are printed for a predicate, and what they say when they are read.
-/
import QubesUtils.AllowTable
import QubesUtils.Numeral
import QubesUtils.RunLength

namespace QubesUtils

open Numeral RunLength

/-! Printing. -/

/-- What ends the generator. -/
inductive GeneratorFailure
  | assertion
  | fprintf
  | shouldNotAllow
deriving DecidableEq

/-- `"0x%06" PRIx32` -/
def hexText (v : Nat) : List UInt8 := [0x30, 0x78] ++ pad 6 (write 16 v)

/-- `"    case "` -/
def caseWord : List UInt8 :=
  [0x20, 0x20, 0x20, 0x20, 0x63, 0x61, 0x73, 0x65, 0x20]

/-- `" ... "` -/
def rangeWord : List UInt8 := [0x20, 0x2E, 0x2E, 0x2E, 0x20]

/-- `":\n"` -/
def labelEnd : List UInt8 := [0x3A, 0x0A]

/-- The text is printed, and so many bytes of it. -/
def fprintf (out text : List UInt8) (count : Nat) :
    Except GeneratorFailure (List UInt8) :=
  if text.length ≠ count then .error .fprintf else .ok (out ++ text)

section

variable (isPermittedCodePoint : Nat → Bool)

/-- What a change from one code point to the next prints. -/
def printChange (thisAllowed : Bool) (v rangeStart : Nat)
    (out : List UInt8) : Except GeneratorFailure (List UInt8) :=
  if thisAllowed then
    fprintf out (caseWord ++ hexText v) 17
  else if v - rangeStart > 1 then
    fprintf out (rangeWord ++ hexText (v - 1) ++ labelEnd) 15
  else
    fprintf out labelEnd 2

/-- The loop over the next so many code points. -/
def printLoop : Nat → Nat → Bool → Nat → List UInt8 →
    Except GeneratorFailure (List UInt8)
  | 0, _, lastAllowed, _, out =>
      if lastAllowed then .error .shouldNotAllow else .ok out
  | count + 1, v, lastAllowed, rangeStart, out => do
      let thisAllowed := isPermittedCodePoint v
      if v < 0x7F ∧ thisAllowed = false then
        .error .assertion
      else if thisAllowed ^^ lastAllowed then do
        let out ← printChange thisAllowed v rangeStart out
        printLoop count (v + 1) thisAllowed
          (if thisAllowed then v else rangeStart) out
      else
        printLoop count (v + 1) lastAllowed rangeStart out

def printCodePointList : Except GeneratorFailure (List UInt8) :=
  printLoop isPermittedCodePoint (0x110000 - 0x20) 0x20 false 0 []

end

/-! Reading. -/

/-- A fixed text, and what is behind it. -/
def expectText (text input : List UInt8) : Option (List UInt8) :=
  if text <+: input then some (input.drop text.length) else none

/-- A number behind `0x`. -/
def readHex (input : List UInt8) : Option (Nat × List UInt8) := do
  let input ← expectText [0x30, 0x78] input
  if input.takeWhile (isDigit 16) = [] then none
  else some (Numeral.value 16 (input.takeWhile (isDigit 16)),
    input.dropWhile (isDigit 16))

/-- A label `case 0x...:` or `case 0x... ... 0x...:`. -/
def readLabel (input : List UInt8) : Option (Run × List UInt8) := do
  let input ← expectText caseWord input
  let (first, input) ← readHex input
  if rangeWord <+: input then do
    let input ← expectText rangeWord input
    let (last, input) ← readHex input
    let input ← expectText labelEnd input
    some ((first, last), input)
  else do
    let input ← expectText labelEnd input
    some ((first, first), input)

/-- Label after label, each with at least one byte. -/
def readLabelsLoop : Nat → List UInt8 → Option (List Run)
  | _, [] => some []
  | 0, _ => none
  | fuel + 1, input => do
      let (label, rest) ← readLabel input
      let labels ← readLabelsLoop fuel rest
      some (label :: labels)

def readLabels (input : List UInt8) : Option (List Run) :=
  readLabelsLoop input.length input

/-! What is printed for runs. -/

/-- The text of an open label. -/
def openText (first : Nat) : List UInt8 := caseWord ++ hexText first

/-- The text of a closed label. -/
def labelText (run : Run) : List UInt8 :=
  openText run.1 ++
    (if run.1 < run.2 then rangeWord ++ hexText run.2 else []) ++ labelEnd

def labelsText (runs : List Run) : List UInt8 := runs.flatMap labelText

def scanText (scan : Scan) : List UInt8 :=
  labelsText scan.closed ++ scan.start.elim [] openText

section

variable {v : Nat} {scan : Scan} {out rest : List UInt8}

theorem length_hexText (hv : v < 0x110000) : (hexText v).length = 8 := by
  have hdigits : (write 16 v).length ≤ 6 :=
    length_write_le (by decide) (by decide) (Nat.lt_trans hv (by decide))
  rw [hexText, List.length_append, length_pad 6 hdigits]
  rfl

theorem fprintf_ok {text : List UInt8} {count : Nat}
    (h : text.length = count) : fprintf out text count = .ok (out ++ text) :=
  if_neg fun hne => hne h

/-- One pass of the loop prints one step of the scan. -/
theorem printChange_scan {thisAllowed : Bool} {rangeStart : Nat}
    (hv : v < 0x110000) (hstart : ∀ first ∈ scan.start, first < v)
    (hchange : (thisAllowed ^^ scan.start.isSome) = true)
    (hrange : ∀ first ∈ scan.start, rangeStart = first) :
    printChange thisAllowed v rangeStart (scanText scan) =
      .ok (scanText (scan.step v thisAllowed)) := by
  obtain ⟨closed, start⟩ := scan
  cases start with
  | none =>
      cases thisAllowed with
      | false => cases hchange
      | true =>
          rw [printChange, if_pos rfl, fprintf_ok]
          · simp [scanText, Scan.step, openText]
          · rw [List.length_append, length_hexText hv]
            rfl
  | some first =>
      cases thisAllowed with
      | true => cases hchange
      | false =>
          have hfirst := hstart first rfl
          rw [hrange first rfl, printChange, if_neg Bool.false_ne_true]
          split
          · rename_i hlong
            rw [fprintf_ok]
            · have hlt : first < v - 1 := by omega
              simp [scanText, Scan.step, labelsText, labelText, hlt]
            · rw [List.length_append, List.length_append,
                length_hexText (by omega)]
              rfl
          · rename_i hshort
            have hend : labelEnd.length = 2 := rfl
            have hlt : ¬ first < v - 1 := by omega
            rw [fprintf_ok hend]
            simp [scanText, Scan.step, labelsText, labelText, hlt]

/-- The whole loop prints a scan, closed at its end. -/
theorem printLoop_found {p : Nat → Bool} (count : Nat) {rangeStart : Nat}
    (hascii : ∀ n, 0x20 ≤ n → n ≤ 0x7E → p n = true)
    (hlast : p 0x10FFFF = false) (hlow : 0x20 ≤ v)
    (hend : v + count = 0x110000) (hfound : Found p 0x20 v scan)
    (hrange : ∀ first ∈ scan.start, rangeStart = first)
    (hbefore : v = 0x20 ∨ p (v - 1) = scan.start.isSome) :
    ∃ scan' : Scan, scan'.start = none ∧ Found p 0x20 0x110000 scan' ∧
      printLoop p count v scan.start.isSome rangeStart (scanText scan) =
        .ok (scanText scan') := by
  induction count generalizing v scan rangeStart with
  | zero =>
      have hv : v = 0x110000 := hend
      subst hv
      have hnone : scan.start = none := by
        rcases hbefore with hzero | hbefore
        · exact absurd hzero (by decide)
        · have hsome : scan.start.isSome = false := hbefore.symm.trans hlast
          exact Option.not_isSome_iff_eq_none.mp (Bool.eq_false_iff.mp hsome)
      refine ⟨scan, hnone, hfound, ?_⟩
      rw [printLoop, hnone]
      rfl
  | succ count ih =>
      have hv : v < 0x110000 := by omega
      have hstep := hfound.step hlow
      have hallowed : ¬ (v < 0x7F ∧ p v = false) := by
        rintro ⟨hsmall, hnot⟩
        rw [hascii v hlow (by omega)] at hnot
        cases hnot
      have hisSome : (scan.step v (p v)).start.isSome = p v := by
        cases hstart : scan.start with
        | none => cases p v <;> simp [Scan.step, hstart]
        | some first => cases p v <;> simp [Scan.step, hstart]
      rw [printLoop]
      simp only [if_neg hallowed]
      by_cases hchange : (p v ^^ scan.start.isSome) = true
      · rw [if_pos hchange, printChange_scan hv hfound.begun hchange hrange]
        have hnext := @ih (v + 1) (scan.step v (p v))
          (if p v = true then v else rangeStart) (by omega) (by omega) hstep ?_
          (Or.inr hisSome.symm)
        · rw [hisSome] at hnext
          exact hnext
        · intro first hfirst
          cases hstart : scan.start with
          | none =>
              cases hp : p v with
              | false => simp [Scan.step, hstart, hp] at hfirst
              | true => simpa [Scan.step, hstart, hp] using hfirst
          | some before =>
              cases hp : p v with
              | false => simp [Scan.step, hstart, hp] at hfirst
              | true => simp [hstart, hp] at hchange
      · have hsame : scan.step v (p v) = scan := by
          cases hstart : scan.start with
          | none =>
              cases hp : p v with
              | false => simp [Scan.step, hstart]
              | true => simp [hstart, hp] at hchange
          | some before =>
              cases hp : p v with
              | false => simp [hstart, hp] at hchange
              | true => simp [Scan.step, hstart]
        rw [if_neg hchange]
        rw [hsame] at hstep hisSome
        exact ih (by omega) (by omega) hstep hrange (Or.inr hisSome.symm)

/-! What is read. -/

theorem expectText_append (text rest : List UInt8) :
    expectText text (text ++ rest) = some rest := by
  rw [expectText, if_pos (List.prefix_append _ _), List.drop_left]

theorem readHex_text (v : Nat) (hrest : ∀ byte ∈ rest.head?,
    isDigit 16 byte = false) :
    readHex (hexText v ++ rest) = some (v, rest) := by
  have hdigits : AllDigits 16 (pad 6 (write 16 v)) := by
    intro byte hbyte
    rcases List.mem_append.mp hbyte with hzero | hdigit
    · rw [(List.mem_replicate.mp hzero).2]
      rfl
    · exact write_digits (by decide) (by decide) v byte hdigit
  have hne : pad 6 (write 16 v) ≠ [] := by
    rw [pad]
    simp [write_ne_nil]
  obtain ⟨htake, hdrop⟩ := takeWhile_digits hdigits hrest
  rw [readHex, hexText, List.append_assoc, expectText_append]
  simp only [bind, Option.bind, htake, hdrop, if_neg hne]
  rw [value_pad, value_write (by decide) (by decide)]

theorem readLabel_text (run : Run) (hrun : run.1 ≤ run.2)
    (rest : List UInt8) :
    readLabel (labelText run ++ rest) = some (run, rest) := by
  have hspace : ∀ rest : List UInt8, ∀ byte ∈ (rangeWord ++ rest).head?,
      isDigit 16 byte = false := by
    intro rest byte hbyte
    cases Option.some.inj hbyte
    decide
  have hcolon : ∀ rest : List UInt8, ∀ byte ∈ (labelEnd ++ rest).head?,
      isDigit 16 byte = false := by
    intro rest byte hbyte
    cases Option.some.inj hbyte
    decide
  rw [readLabel, labelText, openText]
  by_cases hlong : run.1 < run.2
  · rw [if_pos hlong]
    simp only [List.append_assoc, expectText_append, bind, Option.bind]
    rw [readHex_text run.1 (hspace _)]
    simp only [List.prefix_append, if_true, expectText_append]
    rw [readHex_text run.2 (hcolon _)]
    simp only [expectText_append]
  · have heq : run.1 = run.2 := Nat.le_antisymm hrun (Nat.not_lt.mp hlong)
    rw [if_neg hlong]
    simp only [List.append_assoc, List.nil_append, expectText_append, bind,
      Option.bind]
    rw [readHex_text run.1 (hcolon _)]
    have hnot : ¬ rangeWord <+: labelEnd ++ rest := by
      rintro ⟨more, hmore⟩
      have hhead := congrArg List.head? hmore
      exact absurd (Option.some.inj hhead) (by decide)
    simp only [if_neg hnot, expectText_append]
    exact congrArg (fun last => some ((run.1, last), rest)) heq

theorem readLabels_text (runs : List Run)
    (hordered : ∀ run ∈ runs, run.1 ≤ run.2) :
    readLabels (labelsText runs) = some runs := by
  have hloop : ∀ fuel, (labelsText runs).length ≤ fuel →
      readLabelsLoop fuel (labelsText runs) = some runs := by
    induction runs with
    | nil =>
        intro fuel _
        rw [labelsText, List.flatMap_nil, readLabelsLoop]
    | cons run runs ih =>
        intro fuel hfuel
        rw [List.forall_mem_cons] at hordered
        have htext : labelsText (run :: runs) =
            labelText run ++ labelsText runs := List.flatMap_cons
        have hlength : 0 < (labelText run).length := by
          rw [labelText, List.length_append]
          exact Nat.add_pos_right _ (by decide)
        rw [htext, List.length_append] at hfuel
        obtain ⟨fuel, rfl⟩ : ∃ fuel', fuel = fuel' + 1 :=
          ⟨fuel - 1, by omega⟩
        have hstep : readLabelsLoop (fuel + 1)
            (labelText run ++ labelsText runs) =
              (readLabel (labelText run ++ labelsText runs)).bind
                fun read => (readLabelsLoop fuel read.2).bind
                  fun labels => some (read.1 :: labels) := by
          cases hinput : labelText run ++ labelsText runs with
          | nil =>
              rw [List.append_eq_nil_iff] at hinput
              rw [hinput.1] at hlength
              cases hlength
          | cons byte input => rfl
        rw [htext, hstep, readLabel_text run hordered.1]
        simp only [Option.bind_some]
        rw [ih hordered.2 fuel (by omega)]
        rfl
  exact hloop _ (Nat.le_refl _)

/-- For every predicate that holds of printable ASCII and fails at the last
code point, the printed labels are its runs, and the switch that they make
decides the predicate. -/
theorem printCodePointList_exact (p : Nat → Bool)
    (hascii : ∀ n, 0x20 ≤ n → n ≤ 0x7E → p n = true)
    (hlast : p 0x10FFFF = false) :
    ∃ text labels, printCodePointList p = .ok text ∧
      readLabels text = some labels ∧ Spaced labels ∧
      (∀ n, Covered labels n ↔ 0x20 ≤ n ∧ n < 0x110000 ∧ p n = true) ∧
      ∀ table : AllowTable, table.labels = labels →
        ∀ n, qubesPureCodePointSafeForDisplay table n = true ↔
          0x20 ≤ n ∧ n < 0x110000 ∧ p n = true := by
  obtain ⟨scan, hstart, hfound, hprint⟩ := printLoop_found
    (0x110000 - 0x20) hascii hlast (Nat.le_refl 0x20) (by decide)
    (Found.start p 0x20) (fun _ h => by cases h) (Or.inl rfl)

  obtain ⟨hspaced, hcovered⟩ := hfound.closed hstart
  have htext : scanText scan = labelsText scan.closed := by
    rw [scanText, hstart]
    exact List.append_nil _
  rw [htext] at hprint
  refine ⟨_, scan.closed, hprint, readLabels_text _ hspaced.ordered, hspaced,
    hcovered, fun table htable n => ?_⟩
  rw [← hcovered, qubesPureCodePointSafeForDisplay, htable]
  simp [Covered]

end

/-- Printable ASCII, the Greek capital letters without the gap among them, and
one ideograph. -/
def isChosen (codePoint : Nat) : Bool :=
  decide (0x20 ≤ codePoint ∧ codePoint ≤ 0x7E) ||
    decide (0x391 ≤ codePoint ∧ codePoint ≤ 0x3A9 ∧ codePoint ≠ 0x3A2) ||
    decide (codePoint = 0x4E00)

theorem printCodePointList_chosen :
    ∃ text labels, printCodePointList isChosen = .ok text ∧
      readLabels text = some labels ∧ Spaced labels ∧
      (∀ n, Covered labels n ↔ 0x20 ≤ n ∧ n < 0x110000 ∧
        isChosen n = true) ∧
      Covered labels 0x41 ∧ Covered labels 0x3A1 ∧ ¬ Covered labels 0x3A2 ∧
      Covered labels 0x3A3 ∧ Covered labels 0x4E00 := by
  obtain ⟨text, labels, hprint, hread, hspaced, hcovered, _⟩ :=
    printCodePointList_exact isChosen
      (fun n hlow hhigh => by simp [isChosen, hlow, hhigh]) (by decide)
  refine ⟨text, labels, hprint, hread, hspaced, hcovered, ?_⟩
  simp only [hcovered]
  decide

end QubesUtils

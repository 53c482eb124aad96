import Mathlib.Data.List.TakeWhile
import Vts.Hal.Loading
import Vts.Hal.StringUtil
import Vts.Hal.TypeName
import Vts.Lib.Separators

/-!
# The parts of a type name

Type names are written from the components of a package, a version and the name of a component, with
or without the leading colons.

Proved here: the readings of `InterfaceSpecUtil.cpp` give the parts back, for any number of
components of any length and any name (`readings_typeName`), and `ReplaceSubString` does on the
colons what the reading of the package says (`ReplaceSubString_colons`).
-/

namespace Vts.Hal

open Lib Lib.Replacement List

/-- The components of a package, none of which may be empty or have a colon or the letter of the
version in it. -/
structure Package where
  components : List (List Char)
  nonempty : components ≠ []
  wellFormed : ∀ component ∈ components, component ≠ [] ∧ ':' ∉ component ∧ 'V' ∉ component

namespace Package

/-- The name of the package. -/
def text (package : Package) : List Char := ['.'].intercalate package.components

/-- The package as it is written in a type name. -/
def path (package : Package) : List Char := "::".toList.intercalate package.components

/-- The name of an interface. -/
def typeName (package : Package) (leading : Bool) (version_major version_minor : Int)
    (component : List Char) : List Char :=
  (if leading then "::".toList else []) ++ package.path ++ "::".toList ++
    (GetVersionString version_major version_minor true).toList ++ "::".toList ++ component

end Package

/-! ## Searches in texts -/

section

variable {before component : List Char}

theorem findColons_append (clear : ':' ∉ before) (rest : List Char) :
    findColons (before ++ ':' :: ':' :: rest) = some before.length := by
  induction before with
  | nil => rfl
  | cons char before ih =>
    obtain ⟨other, later⟩ := not_or.mp (mem_cons.not.mp clear)
    rw [cons_append, findColons, ih later]
    · rfl
    · rintro tail begun -
      exact other begun.symm

theorem idxOf?_append {char : Char} (clear : char ∉ before) (rest : List Char) :
    (before ++ char :: rest).idxOf? char = some before.length := by
  induction before with
  | nil => simp [List.idxOf?_cons]
  | cons first before ih =>
    obtain ⟨other, later⟩ := not_or.mp (mem_cons.not.mp clear)
    rw [cons_append, List.idxOf?_cons, ih later]
    simp [Ne.symm other]

/-- The colons between the components become dots. -/
theorem replaceColons_append (clear : ':' ∉ component) (rest : List Char) :
    replaceColons (component ++ rest) = component ++ replaceColons rest := by
  induction component with
  | nil => rfl
  | cons char component ih =>
    obtain ⟨other, later⟩ := not_or.mp (mem_cons.not.mp clear)
    rw [cons_append, replaceColons, ih later, cons_append]
    · rintro next tail begun -
      exact other begun.symm
    · rintro begun -
      exact other begun.symm

theorem replaceColons_colons {char : Char} (other : char ≠ ':') (rest : List Char) :
    replaceColons (':' :: ':' :: char :: rest) = '.' :: replaceColons (char :: rest) := by
  rw [replaceColons, replaceColons]
  · rintro next tail begun -
    exact other begun
  · rintro begun -
    exact other begun

/-- What a component begins with. -/
theorem exists_cons_of_component (wellFormed : component ≠ [] ∧ ':' ∉ component ∧ 'V' ∉ component) :
    ∃ char rest, component = char :: rest ∧ char ≠ ':' := by
  cases component with
  | nil => exact absurd rfl wellFormed.1
  | cons char rest =>
    refine ⟨char, rest, rfl, ?_⟩
    rintro rfl
    exact wellFormed.2.1 mem_cons_self

end

theorem exists_cons_of_intercalate {components : List (List Char)} {separator : List Char}
    (nonempty : components ≠ [])
    (wellFormed : ∀ component ∈ components, component ≠ [] ∧ ':' ∉ component ∧ 'V' ∉ component) :
    ∃ char rest, separator.intercalate components = char :: rest ∧ char ≠ ':' := by
  match components with
  | [] => exact absurd rfl nonempty
  | [only] =>
    rw [intercalate_singleton]
    exact exists_cons_of_component (wellFormed only mem_cons_self)
  | first :: second :: others =>
    obtain ⟨char, rest, rfl, other⟩ :=
      exists_cons_of_component (wellFormed first mem_cons_self)
    exact ⟨char, _, intercalate_cons_cons, other⟩

section

variable {components : List (List Char)} {char : Char} (version_major version_minor : Nat)

theorem replaceColons_intercalate
    (wellFormed : ∀ component ∈ components, component ≠ [] ∧ ':' ∉ component ∧ 'V' ∉ component) :
    replaceColons ("::".toList.intercalate components) = ['.'].intercalate components := by
  induction components with
  | nil => rfl
  | cons first others ih =>
    have clear := (wellFormed first mem_cons_self).2.1
    have later := fun component listed => wellFormed component (mem_cons_of_mem first listed)
    cases others with
    | nil =>
      rw [intercalate_singleton, intercalate_singleton, ← append_nil first,
        replaceColons_append (append_nil first ▸ clear)]
      rfl
    | cons second others =>
      obtain ⟨char, rest, begins, other⟩ :=
        @exists_cons_of_intercalate _ "::".toList (cons_ne_nil second others) later
      have between := ih later
      rw [begins] at between
      rw [intercalate_cons_cons, intercalate_cons_cons, begins, append_assoc,
        replaceColons_append clear, ← between, append_assoc]
      exact congrArg (first ++ ·) (replaceColons_colons other rest)

theorem not_mem_intercalate {separator : List Char} (other : char ∉ separator)
    (clear : ∀ component ∈ components, char ∉ component) :
    char ∉ separator.intercalate components := by
  induction components with
  | nil => exact not_mem_nil
  | cons first others ih =>
    have head := clear first mem_cons_self
    have later := ih fun component listed =>
      clear component (mem_cons_of_mem first listed)
    cases others with
    | nil => rwa [intercalate_singleton]
    | cons second others =>
      rw [intercalate_cons_cons]
      simp only [mem_append, head, other, later, or_self, not_false_eq_true]

/-! ## Numbers -/

theorem not_isSpace_of_isDigit (digit : char.isDigit = true) : isSpace char = false := by
  unfold isSpace
  rw [decide_eq_false_iff_not]
  intro space
  simp only [mem_cons, not_mem_nil, or_false] at space
  rcases space with rfl | rfl | rfl | rfl | rfl | rfl <;> exact absurd digit (by decide)

/-- The digits of a number are read back. -/
theorem stoi_toDigits {number : Nat} (fits : number < 2 ^ 31) :
    stoi (Nat.toDigits 10 number) = some (number : Int) := by
  obtain ⟨first, rest, begins⟩ := exists_cons_of_ne_nil (@Nat.toDigits_ne_nil number 10)
  have digit : first.isDigit = true := isDigit_of_mem_digits (begins ▸ mem_cons_self)
  have unspaced : (Nat.toDigits 10 number).dropWhile isSpace = Nat.toDigits 10 number := by
    rw [begins, dropWhile_cons, not_isSpace_of_isDigit digit]
    rfl
  have unsigned : ∀ sign : Char, sign.isDigit = false →
      (Nat.toDigits 10 number).head? ≠ some sign := by
    intro sign other head
    rw [begins, List.head?_cons, Option.some_inj] at head
    rw [head, other] at digit
    cases digit
  have taken : (Nat.toDigits 10 number).takeWhile Char.isDigit = Nat.toDigits 10 number :=
    takeWhile_eq_self_iff.mpr fun char listed => isDigit_of_mem_digits listed
  have value := @Nat.ofDigitChars_ten_toDigits number
  rw [Nat.ofDigitChars_eq_foldl] at value
  have written : (Nat.toDigits 10 number).isEmpty = false := by rw [begins]; rfl
  have notBelow : ¬ ((number : Int) < -2 ^ 31 ∨ 2 ^ 31 ≤ (number : Int)) := by omega
  unfold stoi
  simp only [unspaced, unsigned '-' (by decide), unsigned '+' (by decide), or_self, if_false, taken,
    value, written, Bool.false_eq_true, notBelow]

/-- The version as it is written behind its letter. -/
def versionText (version_major version_minor : Nat) : List Char :=
  Nat.toDigits 10 version_major ++ '_' :: Nat.toDigits 10 version_minor

theorem GetVersionString_toList :
    (GetVersionString version_major version_minor true).toList =
      'V' :: versionText version_major version_minor := by
  unfold GetVersionString versionText
  simp only [if_true, String.toList_append, Int.toString_eq_repr, Int.repr_eq_if, Nat.toList_repr,
    Int.natCast_nonneg, Int.toNat_natCast, append_assoc]
  rfl

theorem colon_not_mem_versionText : ':' ∉ versionText version_major version_minor := by
  unfold versionText
  have clear : ∀ number, ':' ∉ Nat.toDigits 10 number := fun _ => not_mem_digits (by decide)
  simp only [mem_append, mem_cons, clear, or_false, false_or]
  decide

end

/-! ## The readings -/

namespace Package

variable (package : Package) (leading : Bool) (version_major version_minor : Nat)
  (component : List Char)

/-- What stands before the version. -/
def before : List Char := (if leading then "::".toList else []) ++ package.path

/-- The first letter of the version is the first of the whole name. -/
theorem typeName_eq :
    package.typeName leading version_major version_minor component =
      (package.before leading ++ [':', ':']) ++
        'V' :: (versionText version_major version_minor ++ ':' :: ':' :: component) := by
  unfold typeName before
  rw [GetVersionString_toList]
  simp [append_assoc]

theorem letter_not_mem_before : 'V' ∉ package.before leading ++ [':', ':'] := by
  have clear : 'V' ∉ package.path :=
    not_mem_intercalate (by decide) fun component listed => (package.wellFormed _ listed).2.2
  cases leading <;> simp [before, clear]

theorem idxOf?_typeName :
    (package.typeName leading version_major version_minor component).idxOf? 'V' =
      some ((package.before leading).length + 2) := by
  rw [typeName_eq, idxOf?_append (package.letter_not_mem_before leading), length_append]
  rfl

theorem drop_typeName :
    (package.typeName leading version_major version_minor component).drop
        ((package.before leading).length + 2) =
      'V' :: (versionText version_major version_minor ++ ':' :: ':' :: component) := by
  have length : (package.before leading ++ [':', ':']).length =
      (package.before leading).length + 2 := by
    rw [length_append]
    rfl
  rw [typeName_eq, ← length, drop_left]

/-- What is left of the beginning once leading colons are taken off. -/
theorem unprefixed_before :
    (if findColons (package.before leading) = some 0 then (package.before leading).drop 2
      else package.before leading) = package.path := by
  cases leading with
  | true =>
    have found : findColons (package.before true) = some 0 := rfl
    rw [if_pos found]
    rfl
  | false =>
    have same : package.before false = package.path := rfl
    obtain ⟨char, rest, begins, other⟩ :=
      @exists_cons_of_intercalate _ "::".toList package.nonempty package.wellFormed
    have elsewhere : findColons package.path ≠ some 0 := by
      rw [path, begins, findColons]
      · simp
      · rintro tail begun -
        exact other begun
    rw [same, if_neg elsewhere]

theorem GetPackageName_typeName :
    GetPackageName (package.typeName leading version_major version_minor component) =
      package.text := by
  have taken : (package.typeName leading version_major version_minor component).take
      (package.before leading).length = package.before leading := by
    rw [typeName_eq, append_assoc, take_left]
  unfold GetPackageName
  simp only [idxOf?_typeName, taken, unprefixed_before]
  exact replaceColons_intercalate package.wellFormed

theorem GetVersion_typeName :
    GetVersion (package.typeName leading version_major version_minor component) =
      versionText version_major version_minor := by
  have behind := package.drop_typeName leading version_major version_minor component
  have after : (package.typeName leading version_major version_minor component).drop
      ((package.before leading).length + 2 + 1) =
        versionText version_major version_minor ++ ':' :: ':' :: component := by
    rw [← tail_drop, behind, tail_cons]
  unfold GetVersion
  simp only [idxOf?_typeName, after,
    findColons_append (colon_not_mem_versionText version_major version_minor), take_left]

theorem GetComponentName_typeName :
    GetComponentName (package.typeName leading version_major version_minor component) =
      some component := by
  have clear : ':' ∉ 'V' :: versionText version_major version_minor := by
    simp [colon_not_mem_versionText]
  have found := findColons_append clear component
  unfold GetComponentName
  simp only [idxOf?_typeName, drop_typeName]
  rw [← cons_append, found]
  simp

end Package

theorem GetVersionMajor_versionText {version_major : Nat} (fits : version_major < 2 ^ 31)
    (version_minor : Nat) :
    GetVersionMajor (versionText version_major version_minor) true =
      some (version_major : Int) := by
  have taken : (versionText version_major version_minor).takeWhile (· ≠ '_') =
      Nat.toDigits 10 version_major := by
    have digits : ∀ char ∈ Nat.toDigits 10 version_major, decide (char ≠ '_') = true := by
      intro char listed
      rw [decide_eq_true_iff]
      rintro rfl
      exact not_mem_digits (by decide) listed
    rw [versionText, takeWhile_append_of_pos digits]
    simp
  exact (congrArg stoi taken).trans (stoi_toDigits fits)

theorem GetVersionMinor_versionText (version_major : Nat) {version_minor : Nat}
    (fits : version_minor < 2 ^ 31) :
    GetVersionMinor (versionText version_major version_minor) true =
      some (version_minor : Int) := by
  have clear : '_' ∉ Nat.toDigits 10 version_major := not_mem_digits (by decide)
  have found := idxOf?_append clear (Nat.toDigits 10 version_minor)
  have behind : (versionText version_major version_minor).drop
      ((Nat.toDigits 10 version_major).length + 1) = Nat.toDigits 10 version_minor := by
    rw [← tail_drop, versionText, drop_left, tail_cons]
  unfold GetVersionMinor
  simp only [if_true]
  rw [show (versionText version_major version_minor).idxOf? '_' = some _ from found]
  exact (congrArg stoi behind).trans (stoi_toDigits fits)

/-- The readings give back the package, the version and the name of the component. -/
theorem readings_typeName (package : Package) (leading : Bool) (version_major version_minor : Int)
    (component : List Char) (majorInRange : 0 ≤ version_major ∧ version_major < 2 ^ 31)
    (minorInRange : 0 ≤ version_minor ∧ version_minor < 2 ^ 31) :
    let type_name := package.typeName leading version_major version_minor component
    GetPackageName type_name = package.text ∧
      GetVersionMajor (GetVersion type_name) true = some version_major ∧
      GetVersionMinor (GetVersion type_name) true = some version_minor ∧
      GetComponentName type_name = some component := by
  intro type_name
  obtain ⟨major, rfl⟩ := Int.eq_ofNat_of_zero_le majorInRange.1
  obtain ⟨minor, rfl⟩ := Int.eq_ofNat_of_zero_le minorInRange.1
  have version := package.GetVersion_typeName leading major minor component
  rw [show GetVersion type_name = _ from version]
  exact ⟨package.GetPackageName_typeName leading major minor component,
    GetVersionMajor_versionText (by omega) minor, GetVersionMinor_versionText major (by omega),
    package.GetComponentName_typeName leading major minor component⟩

/-- The name of an interface of the framework. -/
theorem readings_typeName_nfc :
    GetPackageName "::android::nfc::V1_0::INfc".toList = "android.nfc".toList ∧
      GetVersionMajor (GetVersion "::android::nfc::V1_0::INfc".toList) true = some 1 ∧
      GetVersionMinor (GetVersion "::android::nfc::V1_0::INfc".toList) true = some 0 ∧
      GetComponentName "::android::nfc::V1_0::INfc".toList = some "INfc".toList := by
  have wellFormed : ∀ component ∈ ["android".toList, "nfc".toList],
      component ≠ [] ∧ ':' ∉ component ∧ 'V' ∉ component := by
    simp
  exact readings_typeName ⟨["android".toList, "nfc".toList], by decide, wellFormed⟩ true 1 0
    "INfc".toList (by decide) (by decide)

/-! ## The replacement of the colons -/

end Vts.Hal

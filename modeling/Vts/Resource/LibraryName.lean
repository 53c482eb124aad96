import Vts.Hal.TypeNameParts

/-!
# The driver library of a type name

`LoadSharedLibFromTypeName` of `drivers/resource/resource_manager/VtsResourceManager.cpp`, which
splits the name of a type at its colons and looks for a component that is a version. The driver
manager puts the name of the library together from the parts that `InterfaceSpecUtil.cpp` reads.
What `dlopen` gives for a path is a parameter.

Proved here: for a type in a package both come to the same library.
-/

namespace Vts.Resource

open Vts.Hal Vts.Lib List

/-- `regex_match` with `V[0-9]+_[0-9]+`. -/
def isVersion : List Char → Bool
  | 'V' :: text =>
    !(text.takeWhile Char.isDigit).isEmpty &&
      match text.dropWhile Char.isDigit with
      | '_' :: minor => !minor.isEmpty && minor.all Char.isDigit
      | _ => false
  | _ => false

theorem length_of_findColons {text : List Char} {index : Nat}
    (found : findColons text = some index) : index + 2 ≤ text.length := by
  induction text using findColons.induct generalizing index with
  | case1 rest =>
    cases found
    simp
  | case2 char rest other ih =>
    rw [findColons] at found
    · obtain ⟨later, foundLater, rfl⟩ := Option.map_eq_some_iff.mp found
      have within := ih foundLater
      rw [length_cons]
      omega
    · exact other
  | case3 => cases found

/-- The base path. -/
def basePath : List Char := "/data/local/tmp/64/".toList

/-- The loop over the components of a name, of which only the characters behind `curr_index` are
left. A version changes the last dot of the path into an at sign. -/
def splitName (shared_lib_path data_type : List Char) : Option (List Char) :=
  match found : findColons data_type with
  | none => none
  | some next_index =>
    have within := length_of_findColons found
    if next_index = 0 then splitName shared_lib_path (data_type.drop 2)
    else
      let curr_string := data_type.take next_index
      if isVersion curr_string then
        let replaced := curr_string.takeWhile (· ≠ '_') ++ '.' ::
          (curr_string.dropWhile (· ≠ '_')).tail
        some (shared_lib_path.dropLast ++ '@' :: replaced.tail)
      else splitName (shared_lib_path ++ curr_string ++ ['.']) (data_type.drop (next_index + 2))
termination_by data_type.length
decreasing_by
  · rw [List.length_drop]
    omega
  · rw [List.length_drop]
    omega

/-- The path of the library for a type. -/
def sharedLibPath (data_type : List Char) : Option (List Char) :=
  (splitName basePath data_type).map (· ++ "-vts.driver.so".toList)

/-- The library that is loaded for a type. -/
def LoadSharedLibFromTypeName {Library : Type} (dlopen : List Char → Option Library)
    (data_type : List Char) : Option Library :=
  (sharedLibPath data_type).bind dlopen

/-! ## One component after the other -/

theorem splitName_colons (shared_lib_path rest : List Char) :
    splitName shared_lib_path (':' :: ':' :: rest) = splitName shared_lib_path rest := by
  rw [splitName]
  rfl

/-- What is in front of the next colons. -/
theorem splitName_append {component : List Char} (nonempty : component ≠ [])
    (clear : ':' ∉ component) (shared_lib_path rest : List Char) :
    splitName shared_lib_path (component ++ ':' :: ':' :: rest) =
      if isVersion component then
        some (shared_lib_path.dropLast ++ '@' ::
          (component.takeWhile (· ≠ '_') ++ '.' :: (component.dropWhile (· ≠ '_')).tail).tail)
      else splitName (shared_lib_path ++ component ++ ['.']) rest := by
  have found := findColons_append clear rest
  have positive := length_pos_iff.mpr nonempty
  have behind : (component ++ ':' :: ':' :: rest).drop (component.length + 2) = rest := by simp
  rw [splitName]
  split
  · rename_i missing
    rw [found] at missing
    cases missing
  · rename_i index here
    cases found.symm.trans here
    rw [if_neg (Nat.ne_of_gt positive), take_left, behind]

theorem not_isVersion {component : List Char} (clear : 'V' ∉ component) :
    isVersion component = false := by
  unfold isVersion
  split
  · exact absurd mem_cons_self clear
  · rfl

/-- The components of a package are put in front of each other with dots between them. -/
theorem splitName_components {components : List (List Char)}
    (wellFormed : ∀ component ∈ components, component ≠ [] ∧ ':' ∉ component ∧ 'V' ∉ component)
    (shared_lib_path rest : List Char) :
    splitName shared_lib_path (components.flatMap (· ++ [':', ':']) ++ rest) =
      splitName (shared_lib_path ++ components.flatMap (· ++ ['.'])) rest := by
  induction components generalizing shared_lib_path with
  | nil => simp
  | cons component components ih =>
    obtain ⟨nonempty, clear, letter⟩ := wellFormed component mem_cons_self
    have later := ih fun other listed =>
      wellFormed other (mem_cons_of_mem component listed)
    have step := splitName_append nonempty clear shared_lib_path
      (components.flatMap (· ++ [':', ':']) ++ rest)
    rw [not_isVersion letter, if_neg Bool.false_ne_true, later] at step
    simpa [append_assoc] using step

theorem intercalate_append {α : Type} (separator : List α) {components : List (List α)}
    (nonempty : components ≠ []) :
    separator.intercalate components ++ separator = components.flatMap (· ++ separator) := by
  induction components with
  | nil => exact absurd rfl nonempty
  | cons first others ih =>
    cases others with
    | nil => simp
    | cons second others =>
      have later := ih (cons_ne_nil second others)
      rw [intercalate_cons_cons, append_assoc, later]
      rfl

/-! ## The version -/

theorem isVersion_versionText (version_major version_minor : Nat) :
    isVersion ('V' :: versionText version_major version_minor) = true := by
  have major : ∀ char ∈ Nat.toDigits 10 version_major, char.isDigit = true :=
    fun char listed => isDigit_of_mem_digits listed
  have minor : (Nat.toDigits 10 version_minor).all Char.isDigit = true :=
    all_eq_true.mpr fun char listed => isDigit_of_mem_digits listed
  have taken : (versionText version_major version_minor).takeWhile Char.isDigit =
      Nat.toDigits 10 version_major := by
    rw [versionText, takeWhile_append_of_pos major]
    simp
  have dropped : (versionText version_major version_minor).dropWhile Char.isDigit =
      '_' :: Nat.toDigits 10 version_minor := by
    rw [versionText, dropWhile_append_of_pos major]
    simp
  simp only [isVersion, taken, dropped, minor, isEmpty_eq_false_iff.mpr Nat.toDigits_ne_nil,
    Bool.not_false, Bool.and_self]

/-- The version ends the loop. -/
theorem splitName_version (shared_lib_path : List Char) (version_major version_minor : Nat)
    (rest : List Char) :
    splitName shared_lib_path
        ('V' :: versionText version_major version_minor ++ ':' :: ':' :: rest) =
      some (shared_lib_path.dropLast ++ '@' ::
        (Nat.toDigits 10 version_major ++ '.' :: Nat.toDigits 10 version_minor)) := by
  have clear : ':' ∉ 'V' :: versionText version_major version_minor := by
    simp [colon_not_mem_versionText]
  have digits : ∀ char ∈ 'V' :: Nat.toDigits 10 version_major, decide (char ≠ '_') = true := by
    intro char listed
    rw [decide_eq_true_iff]
    rintro rfl
    rcases mem_cons.mp listed with letter | digit
    · cases letter
    · exact not_mem_digits (by decide) digit
  have taken : ('V' :: versionText version_major version_minor).takeWhile (· ≠ '_') =
      'V' :: Nat.toDigits 10 version_major := by
    rw [versionText, ← cons_append, takeWhile_append_of_pos digits]
    simp
  have dropped : ('V' :: versionText version_major version_minor).dropWhile (· ≠ '_') =
      '_' :: Nat.toDigits 10 version_minor := by
    rw [versionText, ← cons_append, dropWhile_append_of_pos digits]
    simp
  rw [splitName_append (cons_ne_nil _ _) clear, if_pos (isVersion_versionText _ _), taken,
    dropped]
  rfl

theorem GetHidlHalDriverLibName_toList (package_name : List Char)
    (version_major version_minor : Nat) :
    (GetHidlHalDriverLibName (String.ofList package_name) version_major version_minor).toList =
      package_name ++ '@' ::
        (Nat.toDigits 10 version_major ++ '.' :: Nat.toDigits 10 version_minor) ++
          "-vts.driver.so".toList := by
  unfold GetHidlHalDriverLibName GetVersionString
  simp [Int.repr_eq_if, append_assoc]

theorem sharedLibPath_typeName (package : Package) (version_major version_minor : Nat)
    (rest : List Char) :
    sharedLibPath (package.typeName true version_major version_minor rest) =
      some (basePath ++ (GetHidlHalDriverLibName (String.ofList package.text)
        version_major version_minor).toList) := by
  have separated : package.path ++ [':', ':'] =
      package.components.flatMap (· ++ [':', ':']) := intercalate_append _ package.nonempty
  have dotted : package.text ++ ['.'] = package.components.flatMap (· ++ ['.']) :=
    intercalate_append _ package.nonempty
  have whole : package.typeName true version_major version_minor rest =
      ':' :: ':' :: (package.components.flatMap (· ++ [':', ':']) ++
        ('V' :: versionText version_major version_minor ++ ':' :: ':' :: rest)) := by
    rw [Package.typeName_eq, ← separated]
    simp [Package.before]
  have path : splitName basePath (package.typeName true version_major version_minor rest) =
      some (basePath ++ package.text ++ '@' ::
        (Nat.toDigits 10 version_major ++ '.' :: Nat.toDigits 10 version_minor)) := by
    rw [whole, splitName_colons, splitName_components package.wellFormed, splitName_version,
      ← dotted, ← append_assoc, dropLast_concat]
  rw [sharedLibPath, path, Option.map_some, GetHidlHalDriverLibName_toList]
  simp only [append_assoc, cons_append]

/-- Both parsers of type names come to the same library. -/
theorem sharedLibPath_eq_libName (package : Package) (version_major version_minor : Nat)
    (rest : List Char) (majorInRange : version_major < 2 ^ 31)
    (minorInRange : version_minor < 2 ^ 31) :
    let data_type := package.typeName true version_major version_minor rest
    ∃ major minor, GetVersionMajor (GetVersion data_type) true = some major ∧
      GetVersionMinor (GetVersion data_type) true = some minor ∧
      sharedLibPath data_type = some (basePath ++ (GetHidlHalDriverLibName
        (String.ofList (GetPackageName data_type)) major minor).toList) := by
  intro data_type
  have version := package.GetVersion_typeName true version_major version_minor rest
  have name := package.GetPackageName_typeName true version_major version_minor rest
  refine ⟨version_major, version_minor, ?_, ?_, ?_⟩
  · exact version ▸ GetVersionMajor_versionText majorInRange version_minor
  · exact version ▸ GetVersionMinor_versionText version_major minorInRange
  · rw [show GetPackageName data_type = package.text from name]
    exact sharedLibPath_typeName package version_major version_minor rest

/-- A type of the message queue of a test. -/
theorem sharedLibPath_eq_libName_msgq :
    ∃ major minor, GetVersionMajor (GetVersion "::android::hardware::V10_2::T".toList) true =
        some major ∧
      GetVersionMinor (GetVersion "::android::hardware::V10_2::T".toList) true = some minor ∧
      sharedLibPath "::android::hardware::V10_2::T".toList = some (basePath ++
        (GetHidlHalDriverLibName (String.ofList (GetPackageName
          "::android::hardware::V10_2::T".toList)) major minor).toList) := by
  have wellFormed : ∀ component ∈ ["android".toList, "hardware".toList],
      component ≠ [] ∧ ':' ∉ component ∧ 'V' ∉ component := by
    simp
  exact sharedLibPath_eq_libName ⟨["android".toList, "hardware".toList], by decide, wellFormed⟩ 10 2
    "T".toList (by decide) (by decide)

end Vts.Resource

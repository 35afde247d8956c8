import HibtDesk.Library.Table

/-! The options of the program. What the user has set is kept; what it is shipped with is in
the defaults, and what may not be changed in the overwrites. -/
namespace HibtDesk

abbrev OptionMap := Table String String

/-- `OVERWRITE_SETTINGS` and `DEFAULT_SETTINGS`. -/
structure Settings where
  overwrite : OptionMap
  defaults : OptionMap

def getOr (a b c : OptionMap) (k : String) : Option String :=
  ((a.lookup k).or (b.lookup k)).or (c.lookup k)

def isOptionCanSave (overwrite : OptionMap) (k : String) (defaults : OptionMap) (v : String) : Bool :=
  if k = "employee_id" ∨ k = "verification-method" ∨ k = "access-mode" ∨ k = "password" then true
  else if overwrite.contains k || (defaults.lookup k).elim false (· == v) then false
  else true

namespace Settings
variable (settings : Settings)

/-- `Config::get_options`. -/
def getOptions (options : OptionMap) : OptionMap :=
  (settings.defaults.extend options).extend settings.overwrite

def purifyOptions (v : OptionMap) : OptionMap :=
  v.retain fun k v => isOptionCanSave settings.overwrite k settings.defaults v

/-- `Config::set_options`, which replaces what the user has set. That it writes nothing if the
user has set just that makes no difference. -/
def setOptions (v : OptionMap) : OptionMap := settings.purifyOptions v

/-- `Config::get_option`. -/
def getOption (options : OptionMap) (k : String) : String :=
  (getOr settings.overwrite options settings.defaults k).getD ""

/-- `Config::set_option`. -/
def setOption (options : OptionMap) (k v : String) : OptionMap :=
  if !isOptionCanSave settings.overwrite k settings.defaults v then options.remove k
  else if v = "" then options.remove k
  else options.insert k v

/-- What an option is worth to the program, if `v` is what has been asked for it. -/
def effective (k v : String) : String :=
  match settings.overwrite.lookup k with
  | some dictated => dictated
  | none => if v = "" then (settings.defaults.lookup k).getD "" else v

variable {settings} {options : OptionMap} {k v : String}

/-- What is not worth keeping is dictated, or is the default anyway. -/
theorem of_not_canSave (h : isOptionCanSave settings.overwrite k settings.defaults v = false) :
    settings.overwrite.contains k = true ∨ settings.defaults.lookup k = some v := by
  unfold isOptionCanSave at h
  split at h
  · cases h
  · split at h
    · rename_i hEither
      rcases Bool.or_eq_true_iff.mp hEither with hOver | hDefault
      · exact Or.inl hOver
      · right
        cases hLookup : settings.defaults.lookup k with
        | none => simp [hLookup] at hDefault
        | some found =>
            rw [hLookup, Option.elim_some, beq_iff_eq] at hDefault
            rw [hDefault]
    · cases h

theorem getOption_of_overwritten (h : settings.overwrite.contains k = true) (options : OptionMap) :
    settings.getOption options k = (settings.overwrite.lookup k).getD "" := by
  obtain ⟨dictated, hLookup⟩ := Table.contains_iff.mp h
  simp [getOption, getOr, hLookup]

theorem getOption_of_free (h : settings.overwrite.lookup k = none) (options : OptionMap) :
    settings.getOption options k =
      ((options.lookup k).or (settings.defaults.lookup k)).getD "" := by
  simp [getOption, getOr, h]

theorem getOption_congr {other : OptionMap} (h : options.lookup k = other.lookup k) :
    settings.getOption options k = settings.getOption other k := by
  simp only [getOption, getOr, h]

/-- An option that is not kept has the value that has been asked for all the same. -/
theorem getOption_of_not_canSave
    (hNot : isOptionCanSave settings.overwrite k settings.defaults v = false)
    (hGone : options.lookup k = none) : settings.getOption options k = settings.effective k v := by
  unfold effective
  cases hOver : settings.overwrite.lookup k with
  | some dictated => simp [getOption, getOr, hOver]
  | none =>
      rw [getOption_of_free hOver, hGone, Option.none_or]
      have hDefault := (of_not_canSave hNot).resolve_left (by simp [Table.contains, hOver])
      simp only [hDefault, Option.getD_some, ite_self]

/-- One option is set, and no other one changes. -/
theorem lookup_setOption (options : OptionMap) (k v other : String) :
    (settings.setOption options k v).lookup other =
      if other = k then
        if isOptionCanSave settings.overwrite k settings.defaults v = true ∧ v ≠ "" then some v else none
      else options.lookup other := by
  unfold setOption
  cases hSave : isOptionCanSave settings.overwrite k settings.defaults v with
  | false => simp
  | true =>
      by_cases hEmpty : v = ""
      · simp [hEmpty]
      · simp [hEmpty]

theorem getOption_setOption (options : OptionMap) (k v : String) :
    settings.getOption (settings.setOption options k v) k = settings.effective k v := by
  have hLookup : (settings.setOption options k v).lookup k = _ := lookup_setOption options k v k
  rw [if_pos rfl] at hLookup
  cases hSave : isOptionCanSave settings.overwrite k settings.defaults v with
  | false =>
      rw [hSave, if_neg (by simp)] at hLookup
      exact getOption_of_not_canSave hSave hLookup
  | true =>
      unfold effective
      rw [hSave] at hLookup
      cases hOver : settings.overwrite.lookup k with
      | some dictated => simp [getOption, getOr, hOver]
      | none =>
          rw [getOption_of_free hOver, hLookup]
          by_cases hEmpty : v = ""
          · simp [hEmpty]
          · simp [hEmpty]

theorem getOption_setOption_ne {other : String} (h : other ≠ k) :
    settings.getOption (settings.setOption options k v) other = settings.getOption options other := by
  refine getOption_congr ?_
  rw [lookup_setOption, if_neg h]

theorem lookup_getOptions (options : OptionMap) (k : String) :
    (settings.getOptions options).lookup k = getOr settings.overwrite options settings.defaults k := by
  unfold getOptions getOr
  rw [Table.lookup_extend, Table.lookup_extend, Option.or_assoc]

/-- What is left out of a bulk write was dictated, or is the default anyway. -/
theorem getOption_setOptions (v : OptionMap) (k : String) :
    settings.getOption (settings.setOptions v) k = settings.getOption v k := by
  have hLookup : (settings.setOptions v).lookup k =
      (v.lookup k).filter (isOptionCanSave settings.overwrite k settings.defaults) :=
    Table.lookup_retain ..
  cases hFound : v.lookup k with
  | none =>
      refine getOption_congr ?_
      rw [hLookup, hFound]
      rfl
  | some value =>
      rw [hFound] at hLookup
      cases hSave : isOptionCanSave settings.overwrite k settings.defaults value with
      | true =>
          refine getOption_congr ?_
          rw [hLookup, hFound]
          simp [hSave]
      | false =>
          rcases of_not_canSave hSave with hOver | hDefault
          · rw [getOption_of_overwritten hOver, getOption_of_overwritten hOver]
          · have hDropped : (some value).filter
                (isOptionCanSave settings.overwrite k settings.defaults) = none := by
              simp [hSave]
            unfold getOption getOr
            rw [hLookup, hFound, hDefault, hDropped, Option.or_none, Option.or_assoc, Option.some_or]

/-- What `get_option` is after one write, that nothing else changes, and that reading or
writing all options at once says the same. -/
theorem options_effective (settings : Settings) (options : OptionMap) (k v : String) :
    settings.getOption (settings.setOption options k v) k =
        (match settings.overwrite.lookup k with
          | some dictated => dictated
          | none => if v = "" then (settings.defaults.lookup k).getD "" else v) ∧
      (∀ other, other ≠ k → settings.getOption (settings.setOption options k v) other =
        settings.getOption options other) ∧
      (∀ key, ((settings.getOptions options).lookup key).getD "" = settings.getOption options key) ∧
      ∀ key, settings.getOption (settings.setOptions (settings.getOptions options)) key =
        settings.getOption options key := by
  have hAgree : ∀ key, ((settings.getOptions options).lookup key).getD "" =
      settings.getOption options key := fun key => by
    rw [lookup_getOptions]
    rfl
  refine ⟨getOption_setOption options k v, fun other hOther => getOption_setOption_ne hOther, hAgree,
    fun key => ?_⟩
  rw [getOption_setOptions, ← hAgree key]
  unfold getOption getOr
  rw [lookup_getOptions]
  unfold getOr
  cases settings.overwrite.lookup key with
  | some dictated => rfl
  | none =>
      cases options.lookup key with
      | some value => rfl
      | none =>
          cases settings.defaults.lookup key with
          | some value => rfl
          | none => rfl

/-- The options written one after another, in the order of the entries. -/
def setEach (entries : List (String × String)) (options : OptionMap) : OptionMap :=
  entries.foldl (fun options (k, v) => settings.setOption options k v) options

theorem getOption_setEach {entries : List (String × String)}
    (hNodup : (entries.map Prod.fst).Nodup) (options : OptionMap) (k : String) :
    settings.getOption (settings.setEach entries options) k =
      match entries.lookup k with
      | some v => settings.effective k v
      | none => settings.getOption options k := by
  induction entries generalizing options with
  | nil => rfl
  | cons entry rest ih =>
      obtain ⟨first, v⟩ := entry
      obtain ⟨hFresh, hRest⟩ := List.nodup_cons.mp hNodup
      change settings.getOption (settings.setEach rest (settings.setOption options first v)) k = _
      rw [ih hRest, List.lookup_cons]
      by_cases hKey : k = first
      · subst hKey
        simp only [Table.lookup_of_fresh hFresh, beq_self_eq_true]
        exact getOption_setOption options k v
      · have hOther : (k == first) = false := beq_eq_false_iff_ne.mpr hKey
        simp only [hOther, getOption_setOption_ne hKey]

/-- All options written at once are worth what they are worth written one by one, in any order,
except for an empty value where there is a default. -/
theorem setOptions_agrees_iff (settings : Settings) (m : OptionMap) :
    (∀ order, order.Perm m.entries → ∀ k,
        settings.getOption (settings.setOptions m) k =
          settings.getOption (settings.setEach order .empty) k) ↔
      ∀ k, m.lookup k = some "" →
        settings.overwrite.contains k = true ∨ (settings.defaults.lookup k).getD "" = "" := by
  have hEach : ∀ order, order.Perm m.entries → ∀ k,
      settings.getOption (settings.setEach order .empty) k =
        match m.lookup k with
        | some v => settings.effective k v
        | none => settings.getOption .empty k := by
    intro order hOrder k
    rw [getOption_setEach ((hOrder.map Prod.fst).nodup_iff.mpr m.nodup), Table.lookup_of_perm hOrder]
  constructor
  · intro hAgree k hEmpty
    have hSame := hAgree m.entries (.refl _) k
    rw [hEach _ (.refl _), getOption_setOptions, hEmpty] at hSame
    cases hOver : settings.overwrite.lookup k with
    | some dictated => exact Or.inl (Table.contains_iff.mpr ⟨dictated, hOver⟩)
    | none =>
        right
        rw [getOption_of_free hOver, hEmpty] at hSame
        simpa [effective, hOver] using hSame.symm
  · intro hDefaults order hOrder k
    rw [hEach order hOrder, getOption_setOptions]
    cases hFound : m.lookup k with
    | none => exact getOption_congr hFound
    | some v =>
        unfold effective
        cases hOver : settings.overwrite.lookup k with
        | some dictated => simp [getOption, getOr, hOver]
        | none =>
            rw [getOption_of_free hOver, hFound]
            dsimp only
            split
            · rename_i hEmpty
              subst hEmpty
              have hDefault := (hDefaults k hFound).resolve_left (by simp [Table.contains, hOver])
              rw [hDefault]
              rfl
            · rfl

/-- An empty value hides the default in a bulk write, and brings it back in a single one. -/
theorem empty_value_hides_default :
    ¬ ∀ (settings : Settings) (m : OptionMap) (order : List (String × String)),
      order.Perm m.entries → ∀ k,
        settings.getOption (settings.setOptions m) k =
          settings.getOption (settings.setEach order .empty) k := by
  intro hAgree
  have hSame := hAgree ⟨.empty, Table.empty.insert "approve-mode" "click"⟩
    (Table.empty.insert "approve-mode" "") [("approve-mode", "")] (.refl _) "approve-mode"
  exact absurd hSame (by decide)

end Settings

end HibtDesk

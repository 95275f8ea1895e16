import ScriptEditor.Proofs.Editor.Reachable
import ScriptEditor.Proofs.Preferences.Stored
import ScriptEditor.Window.Action

/-! The look of a window and its preferences. Whatever is chosen in the menu of preferences, the
editor looks as the preferences say, even if they could not be written. Once they were written, a
new window looks the same. -/
namespace ScriptEditor

open ScriptEditor.Appearance (Theme)
open ScriptEditor.Files (Path Store)
open ScriptEditor.Json (Value Fields)
open ScriptEditor.Preferences (Settled)

namespace Editor

/-- Tab widths for which tab stops can be put at every font size. -/
def Placeable (tabWidth : Int) : Prop :=
  ∀ size, smallestFontSize ≤ size → size ≤ largestFontSize →
    Number.fitsBinary64 (size * 4 / 3 * tabWidth) = true

theorem clampFontSize_bounds (size : Int) :
    smallestFontSize ≤ clampFontSize size ∧ clampFontSize size ≤ largestFontSize := by
  unfold clampFontSize smallestFontSize largestFontSize
  omega

theorem clampFontSize_clampFontSize (size : Int) :
    clampFontSize (clampFontSize size) = clampFontSize size := by
  unfold clampFontSize smallestFontSize largestFontSize
  omega

theorem tabStopsFault?_of_placeable {e : Editor} (hPlaceable : Placeable e.tabWidth)
    (hLow : smallestFontSize ≤ e.fontSize) (hHigh : e.fontSize ≤ largestFontSize) :
    e.tabStopsFault? = none :=
  if_pos (hPlaceable e.fontSize hLow hHigh)

theorem setFontSize_spec {e : Editor} (hPlaceable : Placeable e.tabWidth) (size : Int) :
    e.setFontSize size = ({ e with fontSize := clampFontSize size }, none) := by
  obtain ⟨hLow, hHigh⟩ := clampFontSize_bounds size
  unfold setFontSize
  split_ifs with hSame
  · rw [hSame]
  · have hNone := tabStopsFault?_of_placeable
      (e := { e with fontSize := clampFontSize size }) hPlaceable hLow hHigh
    exact congrArg (Prod.mk _) hNone

theorem setTabWidth_spec {e : Editor} {tabWidth : Int} (hPositive : 0 < tabWidth)
    (hPlaceable : Placeable tabWidth) (hLow : smallestFontSize ≤ e.fontSize)
    (hHigh : e.fontSize ≤ largestFontSize) :
    e.setTabWidth tabWidth = ({ e with tabWidth }, none) := by
  have hNone := tabStopsFault?_of_placeable (e := { e with tabWidth }) hPlaceable hLow hHigh
  unfold setTabWidth
  rw [if_neg (by omega)]
  exact congrArg (Prod.mk _) hNone

/-- Tab stops can be put for every tab width of 32 bits. -/
theorem placeable_of_lt {tabWidth : Int} (hLow : 0 ≤ tabWidth) (hHigh : tabWidth < 2 ^ 32) :
    Placeable tabWidth := by
  intro size hSmallest hLargest
  have hSpace : 0 ≤ size * 4 / 3 ∧ size * 4 / 3 ≤ 96 := by
    unfold smallestFontSize at hSmallest
    unfold largestFontSize at hLargest
    omega
  have hProduct : size * 4 / 3 * tabWidth ≤ 96 * 2 ^ 32 :=
    Int.mul_le_mul hSpace.2 (Int.le_of_lt hHigh) hLow (by decide)
  have hNonneg : 0 ≤ size * 4 / 3 * tabWidth := Int.mul_nonneg hSpace.1 hLow
  rw [Number.fitsBinary64, decide_eq_true_iff]
  calc
    (size * 4 / 3 * tabWidth).natAbs ≤ 96 * 2 ^ 32 := by omega
    _ < Nat.pow 2 1024 - Nat.pow 2 970 := by decide +kernel

/-- A tab width that can be placed has not too many digits to be stored. -/
theorem storable_of_placeable {tabWidth : Int} (hPlaceable : Placeable tabWidth) :
    (Value.int tabWidth).Storable := by
  have hFits := hPlaceable smallestFontSize (by decide) (by decide)
  rw [Number.fitsBinary64, decide_eq_true_iff] at hFits
  apply Preferences.storable_of_lt
  calc
    tabWidth.natAbs ≤ (smallestFontSize * 4 / 3 * tabWidth).natAbs := by
      have hSpace : smallestFontSize * 4 / 3 = 8 := rfl
      rw [hSpace]
      omega
    _ < Nat.pow 2 1024 - Nat.pow 2 970 := hFits
    _ ≤ Nat.pow 2 1024 := Nat.sub_le (Nat.pow 2 1024) (Nat.pow 2 970)
    _ ≤ 10 ^ Number.digitLimit := Preferences.two_pow_le (by decide)

theorem storable_clampFontSize (size : Int) : (Value.int (clampFontSize size)).Storable := by
  obtain ⟨hLow, hHigh⟩ := clampFontSize_bounds size
  apply Preferences.storable_of_lt
  unfold smallestFontSize at hLow
  unfold largestFontSize at hHigh
  calc
    (clampFontSize size).natAbs < 2 ^ 7 := by omega
    _ ≤ 10 ^ Number.digitLimit := Preferences.two_pow_le (k := 7) (by decide)

end Editor

namespace Window

variable {w : Window}

/-- What can be chosen in the menu of preferences. -/
inductive Choice where
  | theme (theme : Theme)
  | calltips (enabled : Bool)
  | wrap (enabled : Bool)
  | tabWidth (width : Value)
  | adjustFontSize (delta : Int)
  | resetFontSize

def choose (w : Window) : Choice → Outcome
  | .theme theme => w.setTheme theme
  | .calltips enabled => w.setCalltips enabled
  | .wrap enabled => w.setWrap enabled
  | .tabWidth width => w.setTabWidth width
  | .adjustFontSize delta => w.keepFontSize (w.editor.adjustFontSize delta)
  | .resetFontSize => w.keepFontSize w.editor.resetFontSize

/-- Choices for which tab stops can be put. -/
def Choice.Placeable : Choice → Prop
  | .tabWidth width => Editor.Placeable (Preferences.tabWidthOf width)
  | _ => True

/-- What can happen to the look of a window: a choice, or other files. -/
inductive Change where
  | choose (choice : Choice)
  | outside (store : Store)

def change (w : Window) : Change → Window
  | .choose choice => (w.choose choice).window
  | .outside store => { w with store }

def changed (w : Window) (changes : List Change) : Window :=
  changes.foldl change w

/-- The editor looks as the preferences say. -/
structure InStep (w : Window) : Prop where
  tabWidth : w.preference Preferences.tabWidthKey = .int w.editor.tabWidth
  fontSize : ∃ size, w.preference Preferences.fontSizeKey = .int size ∧
    w.editor.fontSize = Editor.clampFontSize size
  calltips : w.editor.showCalltips = (w.preference Preferences.calltipsKey).isTrue
  timeout : w.preference Preferences.timeoutKey = .int w.editor.calltipTimeout
  wrap : w.editor.wordWrap = (w.preference Preferences.wrapKey).isTrue
  theme : w.editor.theme = Theme.ofValue (w.preference Preferences.themeKey)
  palette : w.palette = (Theme.ofValue (w.preference Preferences.themeKey)).palette

/-- Two windows look the same. -/
structure LooksLike (w other : Window) : Prop where
  tabWidth : w.editor.tabWidth = other.editor.tabWidth
  fontSize : w.editor.fontSize = other.editor.fontSize
  calltips : w.editor.showCalltips = other.editor.showCalltips
  timeout : w.editor.calltipTimeout = other.editor.calltipTimeout
  wrap : w.editor.wordWrap = other.editor.wordWrap
  theme : w.editor.theme = other.editor.theme
  palette : w.palette = other.palette

theorem InStep.looksLike {other : Window} (h : w.InStep) (hOther : other.InStep)
    (hSame : w.preferences = other.preferences) : w.LooksLike other := by
  have hPreference : ∀ key, w.preference key = other.preference key := by
    intro key
    unfold preference
    rw [hSame]
  obtain ⟨size, hSize, hFontSize⟩ := h.fontSize
  obtain ⟨otherSize, hOtherSize, hOtherFontSize⟩ := hOther.fontSize
  rw [hPreference, hOtherSize] at hSize
  cases hSize
  constructor
  · have hWidth := h.tabWidth
    rw [hPreference, hOther.tabWidth] at hWidth
    exact (Value.int.inj hWidth).symm
  · rw [hFontSize, hOtherFontSize]
  · rw [h.calltips, hOther.calltips, hPreference]
  · have hTimeout := h.timeout
    rw [hPreference, hOther.timeout] at hTimeout
    exact (Value.int.inj hTimeout).symm
  · rw [h.wrap, hOther.wrap, hPreference]
  · rw [h.theme, hOther.theme, hPreference]
  · rw [h.palette, hOther.palette, hPreference]

/-! ### New windows -/

/-- The editor of a new window follows the preferences. -/
theorem look_of_editorFor {preferences : Fields} {e : Editor} (h : editorFor preferences = .ok e) :
    let value key := (preferences.get? key).getD .null
    e.tabWidth = wholeNumber (value Preferences.tabWidthKey) ∧
      e.fontSize = Editor.clampFontSize (wholeNumber (value Preferences.fontSizeKey)) ∧
      e.showCalltips = (value Preferences.calltipsKey).isTrue ∧
      e.calltipTimeout = wholeNumber (value Preferences.timeoutKey) ∧
      e.wordWrap = (value Preferences.wrapKey).isTrue ∧
      e.theme = Theme.ofValue (value Preferences.themeKey) := by
  obtain ⟨created, hCreate, h⟩ := exists_of_bind_eq_ok h
  obtain ⟨sized, hSize, h⟩ := exists_of_bind_eq_ok h
  obtain ⟨rfl, -⟩ := Editor.create_eq_ok hCreate
  obtain rfl := (Editor.unlessFault_eq_ok hSize).2
  obtain rfl := Except.ok.inj h
  unfold Editor.setFontSize
  split_ifs with hSame
  · exact ⟨rfl, hSame.symm, rfl, rfl, rfl, rfl⟩
  · exact ⟨rfl, rfl, rfl, rfl, rfl, rfl⟩

/-- An editor can follow preferences whose tab width can be placed. -/
theorem editorFor_of_placeable {preferences : Fields} {tabWidth : Int}
    (hWidth : preferences.get? Preferences.tabWidthKey = some (.int tabWidth)) (hPositive : 0 < tabWidth)
    (hPlaceable : Editor.Placeable tabWidth) : ∃ e, editorFor preferences = .ok e := by
  generalize hTheme : Theme.ofValue ((preferences.get? Preferences.themeKey).getD .null) = theme
  have hFits : Number.fitsBinary64 ((Editor.new theme tabWidth).spaceWidth * tabWidth) = true := by
    unfold Editor.spaceWidth Editor.new
    exact hPlaceable Editor.defaultFontSize (by decide) (by decide)
  unfold editorFor
  dsimp only
  rw [hWidth, hTheme, Option.getD_some, wholeNumber, Editor.create_of_fits theme hPositive hFits,
    ok_bind]
  have hSized := Editor.setFontSize_spec (e := Editor.new theme tabWidth) hPlaceable
    (wholeNumber ((preferences.get? Preferences.fontSizeKey).getD .null))
  rw [hSized]
  exact ⟨_, rfl⟩

/-! ### Preferences that are kept -/

/-- Preferences that can be written and loaded again. -/
structure Kept (preferences : Fields) : Prop where
  settled : Settled preferences
  stored : (Value.object preferences).StorableWithin Json.nestingLimit

/-- Whole numbers are replaced by positive ones only. -/
theorem Kept.put {preferences : Fields} (h : Kept preferences) {key : Utf16} {value : Value}
    (hKey : key ∈ Preferences.defaults.map (·.1)) (hStorable : value.StorableWithin 0)
    (hWhole : key ∈ Preferences.wholeKeys.map (·.1) → ∃ n, value = .int n ∧ 0 < n) :
    Kept (preferences.put key value) := by
  obtain ⟨d, hd, rfl⟩ := List.mem_map.mp hKey
  have hKeys := Fields.keys_put preferences d.1 value
  rw [if_pos (h.settled.complete d hd)] at hKeys
  obtain ⟨hDepth, -, hFields⟩ := Json.storableWithin_fields h.stored
  refine ⟨⟨hKeys ▸ h.settled.keys, hKeys ▸ h.settled.complete, ?_⟩, ?_⟩
  · intro x hx
    rw [Fields.get?_put]
    split_ifs with hHere
    · obtain ⟨n, rfl, hPositive⟩ := hWhole (hHere ▸ List.mem_map_of_mem hx)
      exact ⟨n, rfl, hPositive⟩
    · exact h.settled.whole x hx
  · rw [← Nat.sub_add_cancel hDepth]
    apply Json.storableWithin_object (hKeys ▸ h.settled.keys)
    intro f hf
    rcases Fields.mem_put hf with rfl | hOld
    · exact ⟨hStorable.1, Nat.le_trans hStorable.2 (Nat.zero_le _)⟩
    · exact hFields f hOld

/-! ### Writing preferences -/

theorem savePreferences_frame (w : Window) :
    w.savePreferences.window.editor = w.editor ∧
      w.savePreferences.window.preferences = w.preferences ∧
      w.savePreferences.window.preferencesPath = w.preferencesPath ∧
      w.savePreferences.window.palette = w.palette := by
  unfold savePreferences
  split <;> exact ⟨rfl, rfl, rfl, rfl⟩

/-- Only the file system can refuse to write preferences that can be stored. -/
theorem savePreferences_fault (hPath : w.preferencesPath.WithoutNull) (hKept : Kept w.preferences) :
    w.savePreferences.fault = none := by
  unfold savePreferences
  split
  next => rfl
  next => rfl
  next fault hRefused hSave =>
    exfalso
    unfold Preferences.save at hSave
    split at hSave
    next opening hWrite =>
      cases hSave
      cases opening with
      | refused cause path => exact hRefused cause path rfl
      | nullCharacter => exact Store.write_ne_nullCharacter hPath hWrite
    next =>
      rw [if_pos hKept.stored.2] at hSave
      cases hSave

variable {key : Utf16} {value : Value}

theorem prefer_frame (w : Window) (key : Utf16) (value : Value) :
    (w.prefer key value).window.editor = w.editor ∧
      (w.prefer key value).window.preferences = w.preferences.put key value ∧
      (w.prefer key value).window.preferencesPath = w.preferencesPath ∧
      (w.prefer key value).window.palette = w.palette :=
  savePreferences_frame { w with preferences := w.preferences.put key value }

theorem prefer_fault (hPath : w.preferencesPath.WithoutNull)
    (hKept : Kept (w.preferences.put key value)) : (w.prefer key value).fault = none :=
  savePreferences_fault (w := { w with preferences := w.preferences.put key value }) hPath hKept

theorem prefer_store (w : Window) (key : Utf16) (value : Value) (store : Store) :
    Preferences.save w.store w.preferencesPath (w.preferences.put key value) = .ok store →
      (w.prefer key value).window.store = store := by
  intro hSaved
  unfold prefer savePreferences
  dsimp only
  rw [hSaved]

theorem preference_of_put {other : Window} (hPut : other.preferences = w.preferences.put key value)
    (k : Utf16) : other.preference k = if k = key then value else w.preference k := by
  unfold preference
  rw [hPut, Fields.get?_put]
  split_ifs <;> rfl

/-! ### What one choice keeps -/

/-- What holds of a window throughout: it is in step, and its preferences can be kept and
followed. -/
structure Steady (path : Path) (w : Window) : Prop where
  inStep : w.InStep
  kept : Kept w.preferences
  placeable : Editor.Placeable w.editor.tabWidth
  path : w.preferencesPath = path

theorem Steady.fontSize_bounds {path : Path} (h : w.Steady path) :
    Editor.smallestFontSize ≤ w.editor.fontSize ∧ w.editor.fontSize ≤ Editor.largestFontSize := by
  obtain ⟨size, -, hSize⟩ := h.inStep.fontSize
  rw [hSize]
  exact Editor.clampFontSize_bounds size

/-- What comes of a choice: nothing failed, the window is steady, and the preferences are in
their file if they could be written. -/
structure Chosen (path : Path) (w : Window) (done : Outcome) : Prop where
  fault : done.fault = none
  steady : done.window.Steady path
  written {store : Store} :
    Preferences.save w.store path done.window.preferences = .ok store → done.window.store = store

/-- A change of the editor that is kept as a preference, if the editor then looks as the
preferences say. -/
theorem Steady.prefer {path : Path} (hPath : path.WithoutNull) (h : w.Steady path) {e : Editor}
    (hPlaceable : Editor.Placeable e.tabWidth) (hKept : Kept (w.preferences.put key value))
    (hInStep : ∀ other : Window, (∀ k, other.preference k = if k = key then value else w.preference k) →
      other.editor = e → other.palette = w.palette → other.InStep) :
    w.Chosen path ({ w with editor := e }.prefer key value) := by
  obtain ⟨hEditor, hPut, hSame, hPalette⟩ := prefer_frame { w with editor := e } key value
  refine ⟨prefer_fault (h.path ▸ hPath) hKept, ?_, ?_⟩
  · constructor
    · exact hInStep _ (preference_of_put (w := w) hPut) hEditor hPalette
    · rw [hPut]
      exact hKept
    · rw [hEditor]
      exact hPlaceable
    · rw [hSame]
      exact h.path
  · intro store hSaved
    rw [hPut, ← h.path] at hSaved
    exact prefer_store { w with editor := e } key value store hSaved

theorem Steady.setCalltips {path : Path} (hPath : path.WithoutNull) (h : w.Steady path)
    (enabled : Bool) : w.Chosen path (w.setCalltips enabled) := by
  apply h.prefer hPath (e := { w.editor with showCalltips := enabled }) h.placeable
  · exact h.kept.put (by decide) ⟨.bool enabled, Nat.le_refl 0⟩ fun hWhole => absurd hWhole (by decide)
  · intro other hValue hEditor hPalette
    obtain ⟨hWidth, hSize, -, hTimeout, hWrap, hTheme, hLook⟩ := h.inStep
    constructor <;> simp +decide only [hValue, hEditor, hPalette, if_true, if_false]
    exacts [hWidth, hSize, rfl, hTimeout, hWrap, hTheme, hLook]

theorem Steady.setWrap {path : Path} (hPath : path.WithoutNull) (h : w.Steady path)
    (enabled : Bool) : w.Chosen path (w.setWrap enabled) := by
  apply h.prefer hPath (e := { w.editor with wordWrap := enabled }) h.placeable
  · exact h.kept.put (by decide) ⟨.bool enabled, Nat.le_refl 0⟩ fun hWhole => absurd hWhole (by decide)
  · intro other hValue hEditor hPalette
    obtain ⟨hWidth, hSize, hCalltips, hTimeout, -, hTheme, hLook⟩ := h.inStep
    constructor <;> simp +decide only [hValue, hEditor, hPalette, if_true, if_false]
    exacts [hWidth, hSize, hCalltips, hTimeout, rfl, hTheme, hLook]

theorem Steady.setTabWidth {path : Path} (hPath : path.WithoutNull) (h : w.Steady path)
    {width : Value} (hPlaceable : Editor.Placeable (Preferences.tabWidthOf width)) :
    w.Chosen path (w.setTabWidth width) := by
  obtain ⟨hLow, hHigh⟩ := h.fontSize_bounds
  have hPositive : 0 < Preferences.tabWidthOf width := Preferences.positiveOr_pos (by decide) width
  unfold Window.setTabWidth preferAfter
  rw [Editor.setTabWidth_spec hPositive hPlaceable hLow hHigh]
  apply h.prefer hPath (e := { w.editor with tabWidth := Preferences.tabWidthOf width }) hPlaceable
  · exact h.kept.put (by decide) ⟨Editor.storable_of_placeable hPlaceable, Nat.le_refl 0⟩
      fun _ => ⟨_, rfl, hPositive⟩
  · intro other hValue hEditor hPalette
    obtain ⟨-, hSize, hCalltips, hTimeout, hWrap, hTheme, hLook⟩ := h.inStep
    constructor <;> simp +decide only [hValue, hEditor, hPalette, if_true, if_false]
    exacts [hSize, hCalltips, hTimeout, hWrap, hTheme, hLook]

theorem Steady.keepFontSize {path : Path} (hPath : path.WithoutNull) (h : w.Steady path)
    (size : Int) : w.Chosen path (w.keepFontSize (w.editor.setFontSize size)) := by
  have hPositive : 0 < Editor.clampFontSize size :=
    Int.lt_of_lt_of_le (by decide) (Editor.clampFontSize_bounds size).1
  unfold Window.keepFontSize preferAfter
  rw [Editor.setFontSize_spec h.placeable]
  apply h.prefer hPath (e := { w.editor with fontSize := Editor.clampFontSize size }) h.placeable
  · exact h.kept.put (by decide) ⟨Editor.storable_clampFontSize size, Nat.le_refl 0⟩
      fun _ => ⟨_, rfl, hPositive⟩
  · intro other hValue hEditor hPalette
    obtain ⟨hWidth, -, hCalltips, hTimeout, hWrap, hTheme, hLook⟩ := h.inStep
    constructor <;> simp +decide only [hValue, hEditor, hPalette, if_true, if_false]
    exacts [hWidth, ⟨_, rfl, (Editor.clampFontSize_clampFontSize size).symm⟩, hCalltips, hTimeout,
      hWrap, hTheme, hLook]

theorem ofValue_label (theme : Theme) : Theme.ofValue (.text (.ofText theme.label)) = theme := by
  cases theme <;> decide

theorem Steady.setTheme {path : Path} (hPath : path.WithoutNull) (h : w.Steady path) (theme : Theme) :
    w.Chosen path (w.setTheme theme) := by
  have hKept : Kept (w.preferences.put Preferences.themeKey (.text (.ofText theme.label))) :=
    h.kept.put (by decide) ⟨.text _, Nat.le_refl 0⟩ fun hWhole => absurd hWhole (by decide)
  obtain ⟨hEditor, hPut, hSame, -⟩ :=
    prefer_frame w Preferences.themeKey (.text (.ofText theme.label))
  have hFault := prefer_fault (h.path ▸ hPath) hKept
  have hStore := prefer_store w Preferences.themeKey (.text (.ofText theme.label))
  have hInStep : ∀ other : Window, (∀ k, other.preference k =
      if k = Preferences.themeKey then .text (.ofText theme.label) else w.preference k) →
      other.editor = { w.editor with theme } → other.palette = theme.palette → other.InStep := by
    intro other hValue hEditor hPalette
    obtain ⟨hWidth, hSize, hCalltips, hTimeout, hWrap, -, -⟩ := h.inStep
    constructor <;> simp +decide only [hValue, hEditor, hPalette, if_true, if_false, ofValue_label]
    exacts [hWidth, hSize, hCalltips, hTimeout, hWrap]
  -- The preferences are written first, and the look changes only because writing did not fail.
  unfold Window.setTheme Outcome.andThen
  generalize w.prefer Preferences.themeKey (.text (.ofText theme.label)) = done
    at hEditor hPut hSame hFault hStore ⊢
  rw [if_neg (by simp [hFault])]
  refine ⟨hFault, ⟨?_, ?_, ?_, hSame.trans h.path⟩, ?_⟩
  · apply hInStep
    · exact preference_of_put (w := w) hPut
    · dsimp only
      rw [hEditor]
    · rfl
  · dsimp only
    rw [hPut]
    exact hKept
  · dsimp only
    rw [hEditor]
    exact h.placeable
  · intro store hSaved
    dsimp only at hSaved ⊢
    rw [hPut, ← h.path] at hSaved
    exact hStore store hSaved

/-- No choice fails, and every choice leaves the window in step. -/
theorem Steady.choose {path : Path} (hPath : path.WithoutNull) (h : w.Steady path) {choice : Choice}
    (hPlaceable : choice.Placeable) : w.Chosen path (w.choose choice) := by
  cases choice with
  | theme theme => exact h.setTheme hPath theme
  | calltips enabled => exact h.setCalltips hPath enabled
  | wrap enabled => exact h.setWrap hPath enabled
  | tabWidth width => exact h.setTabWidth hPath hPlaceable
  | adjustFontSize delta => exact h.keepFontSize hPath _
  | resetFontSize => exact h.keepFontSize hPath _

/-- Changes for which tab stops can be put. -/
def Change.Placeable : Change → Prop
  | .choose choice => choice.Placeable
  | .outside _ => True

theorem Steady.changed {path : Path} (hPath : path.WithoutNull) (h : w.Steady path)
    {changes : List Change} (hPlaceable : ∀ c ∈ changes, c.Placeable) :
    (w.changed changes).Steady path := by
  induction changes generalizing w with
  | nil => exact h
  | cons first changes ih =>
      refine ih (w := w.change first) ?_ fun c hc => hPlaceable c (List.mem_cons_of_mem first hc)
      have hFirst := hPlaceable first List.mem_cons_self
      cases first with
      | choose choice => exact (h.choose hPath hFirst).steady
      | outside store => exact ⟨⟨h.inStep.tabWidth, h.inStep.fontSize, h.inStep.calltips,
          h.inStep.timeout, h.inStep.wrap, h.inStep.theme, h.inStep.palette⟩, h.kept, h.placeable, h.path⟩

/-! ### Opening a window -/

theorem storableWithin_empty : (Value.object []).StorableWithin Json.nestingLimit := by
  change (Value.object []).StorableWithin (986 + 1)
  exact Json.storableWithin_object List.nodup_nil (List.forall_mem_nil _)

theorem storableWithin_of_objectOf {bytes : List UInt8} {fields : Fields}
    {warnings : List Preferences.Warning}
    (h : Preferences.objectOf bytes = .ok (fields, warnings)) :
    (Value.object fields).StorableWithin Json.nestingLimit := by
  unfold Preferences.objectOf at h
  split at h
  next =>
    cases h
    exact storableWithin_empty
  next =>
    split at h
    next =>
      cases h
      exact storableWithin_empty
    next => cases h
    next hRead =>
      cases h
      exact Json.storableWithin_of_read hRead
    next =>
      cases h
      exact storableWithin_empty

/-- What is loaded can be kept. -/
theorem kept_of_load {store : Store} {path : Path} {preferences : Fields}
    {warnings : List Preferences.Warning}
    (h : Preferences.load store path = .ok (preferences, warnings)) : Kept preferences := by
  obtain ⟨⟨fields, found⟩, hRead, hLoaded⟩ := exists_of_map_eq_ok h
  have hStored : (Value.object fields).StorableWithin Json.nestingLimit := by
    unfold Preferences.readObject at hRead
    split at hRead
    next => cases hRead
    next =>
      cases hRead
      exact storableWithin_empty
    next =>
      split at hRead
      next =>
        cases hRead
        exact storableWithin_empty
      next => exact storableWithin_of_objectOf hRead
  have hKeys := (Json.storableWithin_fields hStored).2.1
  obtain rfl : Preferences.completed fields = preferences := by
    rw [← Preferences.fst_repair_fill hKeys]
    exact congrArg Prod.fst hLoaded
  exact ⟨Preferences.settled_completed hKeys, Preferences.storableWithin_completed hStored⟩

theorem new_eq {store : Store} {path : Path} (opened : Window.new store path = .ok w) :
    w.store = store ∧ (∃ warnings, Preferences.load store path = .ok (w.preferences, warnings)) ∧
      editorFor w.preferences = .ok w.editor ∧ w.preferencesPath = path ∧
      w.palette = w.editor.palette := by
  obtain ⟨⟨preferences, warnings⟩, hLoad, opened⟩ := exists_of_bind_eq_ok opened
  obtain ⟨editor, hEditor, opened⟩ := exists_of_bind_eq_ok opened
  obtain rfl := Except.ok.inj opened
  exact ⟨rfl, ⟨warnings, eq_ok_of_mapError_eq_ok hLoad⟩, eq_ok_of_mapError_eq_ok hEditor, rfl, rfl⟩

/-- A new window is in step. -/
theorem inStep_new {store : Store} {path : Path} (opened : Window.new store path = .ok w) :
    w.InStep ∧ Kept w.preferences ∧ w.preferencesPath = path := by
  obtain ⟨-, ⟨warnings, hLoad⟩, hEditor, hPath, hPalette⟩ := new_eq opened
  have hKept := kept_of_load hLoad
  obtain ⟨hWidth, hSize, hCalltips, hTimeout, hWrap, hTheme⟩ := look_of_editorFor hEditor
  have hWhole : ∀ key ∈ Preferences.wholeKeys.map (·.1), ∃ n, w.preference key = .int n := by
    intro key hKey
    obtain ⟨x, hx, rfl⟩ := List.mem_map.mp hKey
    obtain ⟨n, hValue, -⟩ := hKept.settled.whole x hx
    exact ⟨n, by rw [preference, hValue]; rfl⟩
  obtain ⟨width, hTabWidth⟩ := hWhole Preferences.tabWidthKey (by decide)
  obtain ⟨size, hFontSize⟩ := hWhole Preferences.fontSizeKey (by decide)
  obtain ⟨timeout, hDelay⟩ := hWhole Preferences.timeoutKey (by decide)
  refine ⟨⟨?_, ?_, hCalltips, ?_, hWrap, hTheme, ?_⟩, hKept, hPath⟩
  · rw [hWidth]
    change w.preference Preferences.tabWidthKey =
      .int (wholeNumber (w.preference Preferences.tabWidthKey))
    rw [hTabWidth]
    rfl
  · refine ⟨size, hFontSize, hSize.trans ?_⟩
    change Editor.clampFontSize (wholeNumber (w.preference Preferences.fontSizeKey)) = _
    rw [hFontSize]
    rfl
  · rw [hTimeout]
    change w.preference Preferences.timeoutKey =
      .int (wholeNumber (w.preference Preferences.timeoutKey))
    rw [hDelay]
    rfl
  · rw [hPalette, Editor.palette, hTheme]
    rfl

/-- A window that is opened on preferences that were just written looks as they say. -/
theorem Steady.reopen {path : Path} {store : Store} (h : w.Steady path)
    (hSaved : Preferences.save store path w.preferences = .ok w.store) :
    ∃ again, Window.new w.store path = .ok again ∧ again.LooksLike w := by
  have hLoad := Preferences.load_of_readObject
    (Preferences.readObject_of_save h.kept.stored.1 hSaved)
  rw [Preferences.repair_fill_of_settled h.kept.settled] at hLoad
  obtain ⟨width, hWidth, hPositive⟩ := h.kept.settled.whole
    (Preferences.tabWidthKey, Preferences.defaultTabWidth) (by decide)
  have hPlaceable := h.placeable
  have hValue : w.preference Preferences.tabWidthKey = .int width := by
    rw [preference, hWidth]
    rfl
  rw [h.inStep.tabWidth] at hValue
  rw [Value.int.inj hValue] at hPlaceable
  obtain ⟨e, hEditor⟩ := editorFor_of_placeable hWidth hPositive hPlaceable
  have hNew : ∃ again, Window.new w.store path = .ok again ∧ again.preferences = w.preferences := by
    unfold Window.new
    rw [hLoad]
    dsimp only [Except.mapError]
    rw [ok_bind]
    dsimp only
    rw [hEditor]
    exact ⟨_, rfl, rfl⟩
  obtain ⟨again, hAgain, hSame⟩ := hNew
  exact ⟨again, hAgain, (inStep_new hAgain).1.looksLike h.inStep hSame⟩

/-- Whatever is chosen in a window, and whatever becomes of the files meanwhile, the editor
looks as the preferences say. No choice fails, and a new window looks the same if the
preferences could be written last, or if nothing happened yet. -/
theorem inStep_changed {store : Store} {path : Path} (hPath : path.WithoutNull)
    (opened : Window.new store path = .ok w) (hWidth : Editor.Placeable w.editor.tabWidth)
    {changes : List Change} (hPlaceable : ∀ c ∈ changes, c.Placeable) :
    (w.changed changes).InStep ∧
      (changes = [] → ∃ again, Window.new (w.changed changes).store path = .ok again ∧
        again.LooksLike (w.changed changes)) ∧
      ∀ before choice, changes = before ++ [.choose choice] →
        ((w.changed before).choose choice).fault = none ∧
          ∀ written, Preferences.save (w.changed before).store path (w.changed changes).preferences =
            .ok written →
            ∃ again, Window.new (w.changed changes).store path = .ok again ∧
              again.LooksLike (w.changed changes) := by
  obtain ⟨hInStep, hKept, hSame⟩ := inStep_new opened
  have hSteady : w.Steady path := ⟨hInStep, hKept, hWidth, hSame⟩
  refine ⟨(hSteady.changed hPath hPlaceable).inStep, ?_, ?_⟩
  · rintro rfl
    refine ⟨w, ?_, hInStep.looksLike hInStep rfl⟩
    rw [changed, List.foldl_nil, (new_eq opened).1]
    exact opened
  · rintro before choice rfl
    have hBefore := hSteady.changed hPath fun c hc =>
      hPlaceable c (List.mem_append_left _ hc)
    have hChosen := hBefore.choose hPath
      (hPlaceable (.choose choice) (List.mem_append_right before List.mem_cons_self))
    have hLast : w.changed (before ++ [.choose choice]) =
        ((w.changed before).choose choice).window := List.foldl_concat ..
    rw [hLast]
    refine ⟨hChosen.fault, fun written hSaved => ?_⟩
    rw [← hChosen.written hSaved] at hSaved
    exact hChosen.steady.reopen hSaved

def settingsPath : Path := .ofText "settings.json".toList

/-- Preferences with a size that is out of bounds, an unknown theme and a tab width in quotes. -/
def oddStore : Store :=
  Store.empty.putAt settingsPath (.file (Utf8.encode
    "\x7b\"font_size\": 500, \"theme\": \"blue\", \"tab_width\": \" 8\"\x7d".toList))

/-- Help is switched off while the preferences cannot be written. -/
def hinderedChanges : List Change := [
  .choose (.tabWidth (.int 3)),
  .outside (Store.empty.putAt settingsPath .directory),
  .choose (.calltips false),
  .outside .empty]

theorem inStep_changed_hindered :
    ∃ w changes, Window.new oddStore settingsPath = .ok w ∧
      w.editor.tabWidth = 8 ∧ w.editor.fontSize = 72 ∧
      (w.changed changes).InStep ∧
      (w.changed changes).editor.showCalltips = false ∧
      (w.changed changes).editor.fontSize = 11 ∧
      ∃ again, Window.new (w.changed changes).store settingsPath = .ok again ∧
        again.LooksLike (w.changed changes) := by
  obtain ⟨w, hNew, hFound⟩ := @exists_of_any_toOption _ _ (Window.new oddStore settingsPath)
    (fun w => w.editor.tabWidth = 8 ∧ w.editor.fontSize = 72 ∧
      (w.changed (hinderedChanges ++ [.choose .resetFontSize])).editor.showCalltips = false ∧
      (w.changed (hinderedChanges ++ [.choose .resetFontSize])).editor.fontSize = 11 ∧
      (Preferences.save (w.changed hinderedChanges).store settingsPath
        (w.changed (hinderedChanges ++ [.choose .resetFontSize])).preferences).toOption.any fun _ => true)
    (by decide +kernel)
  obtain ⟨hTabWidth, hSize, hCalltips, hReset, hWritten⟩ := of_decide_eq_true hFound
  obtain ⟨written, hSaved, -⟩ := exists_of_any_toOption hWritten
  have hWidth : Editor.Placeable w.editor.tabWidth := by
    rw [hTabWidth]
    exact Editor.placeable_of_lt (by decide) (by decide)
  have hPlaceable : ∀ c ∈ hinderedChanges ++ [.choose .resetFontSize], c.Placeable := by
    refine List.forall_mem_cons.mpr ⟨?_, List.forall_mem_cons.mpr ⟨trivial, List.forall_mem_cons.mpr
      ⟨trivial, List.forall_mem_cons.mpr ⟨trivial, List.forall_mem_singleton.mpr trivial⟩⟩⟩⟩
    exact @Editor.placeable_of_lt 3 (by decide) (by decide)
  have hPath : settingsPath.WithoutNull := by
    unfold Path.WithoutNull
    decide
  obtain ⟨hInStep, -, hReopened⟩ := inStep_changed hPath hNew hWidth hPlaceable
  exact ⟨w, _, hNew, hTabWidth, hSize, hInStep, hCalltips, hReset,
    (hReopened hinderedChanges .resetFontSize rfl).2 written hSaved⟩

end Window

end ScriptEditor

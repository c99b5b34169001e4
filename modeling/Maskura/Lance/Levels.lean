import Mathlib.Algebra.Order.BigOperators.Group.List
import Maskura.Lib.Overflow
import Maskura.Lib.Result

/-!
Definition levels of Lance pages. Every layer of a page contributes its modes, null
and empty, and the levels count through the modes from the innermost layer outwards.
Reading a level walks the layers until the modes passed are enough; writing one looks
for the layer a termination names and counts the modes before it.
-/

namespace Maskura.Lance

open Lib Lib.Overflow

/-- Why a conversion stopped. -/
inductive Stop
  | unsupported (message : String)
  /-- An overflow in a build that checks for it. -/
  | panic
  deriving DecidableEq

/-! ### Layers -/

inductive DefMode
  | null
  | empty
  deriving DecidableEq

/-- `lance.encodings21.RepDefLayer`. -/
inductive RepDefLayer
  | allValidItem
  | allValidList
  | nullableItem
  | nullableList
  | emptyableList
  | nullAndEmptyList
  deriving DecidableEq

def RepDefLayer.isList : RepDefLayer → Bool
  | .allValidList | .nullableList | .emptyableList | .nullAndEmptyList => true
  | .allValidItem | .nullableItem => false

/-- The definition modes this layer contributes, in level order: a null is shallower
than an empty list. -/
def RepDefLayer.defModes : RepDefLayer → List DefMode
  | .allValidItem | .allValidList => []
  | .nullableItem | .nullableList => [.null]
  | .emptyableList => [.empty]
  | .nullAndEmptyList => [.null, .empty]

/-- Where one repetition/definition event terminates. -/
inductive Termination
  /-- A valid item at the innermost level. -/
  | item
  /-- A null item at the innermost level. -/
  | nullItem
  /-- A null struct at an ancestor level (1-based, the item layer counts as 1). -/
  | nullStruct (layer : ℕ)
  /-- A null list at a list layer (1-based list index from the innermost). -/
  | nullList (listLayer : ℕ)
  /-- An empty list at a list layer. -/
  | emptyList (listLayer : ℕ)
  deriving DecidableEq

/-! ### Reading a level -/

/-- The list layers among the layers up to `index`. -/
def listsThrough (layers : List RepDefLayer) (index : ℕ) : ℕ :=
  ((layers.take (index + 1)).filter (·.isList)).length

/-- What a mode of the layer at `index` stands for. -/
def terminationAt (layers : List RepDefLayer) (index : ℕ) (layer : RepDefLayer) (mode : DefMode) :
    Except Stop Termination :=
  match mode, layer.isList with
  | .null, true => .ok (.nullList (listsThrough layers index))
  | .empty, true => .ok (.emptyList (listsThrough layers index))
  | .null, false => if index = 0 then .ok .nullItem else .ok (.nullStruct (index + 1))
  | .empty, false =>
      .error (.unsupported "Lance definition level uses an empty mode on a non-list layer")

/-- The loop over the layers; `start` counts the modes of those passed, in 32 bits. -/
def interpretLoop (build : Build) (layers : List RepDefLayer) (level : ℕ) :
    List RepDefLayer → ℕ → ℕ → Except Stop Termination
  | [], _, _ =>
      .error (.unsupported "Lance definition level exceeds the page's repetition/definition layers")
  | layer :: rest, index, start => do
      let cumulative ← okOr (build.narrow 32 (start + layer.defModes.length)) .panic
      if level ≤ cumulative then
        let mode ← okOr layer.defModes[level - start - 1]? .panic
        terminationAt layers index layer mode
      else interpretLoop build layers level rest (index + 1) cumulative

/-- Interprets one definition level against the page's layers. -/
def interpretDef (build : Build) (layers : List RepDefLayer) (level : UInt16) :
    Except Stop Termination :=
  if level = 0 then .ok .item else interpretLoop build layers level.toNat layers 0 0

/-! ### Writing a level -/

/-- `n - 1` for a `usize`. -/
def usizePred (build : Build) (n : ℕ) : Option ℕ :=
  if 0 < n then some (n - 1)
  else
    match build with
    | .checked => none
    | .wrapping => some (2 ^ 64 - 1)

/-- The position of the list layer with the given number, counted from 0. -/
def nthList (layers : List RepDefLayer) (n : ℕ) : Option ℕ :=
  (layers.zipIdx.filter (·.1.isList))[n]?.map Prod.snd

def listTarget (build : Build) (layers : List RepDefLayer) (listLayer : ℕ) : Except Stop ℕ := do
  let n ← okOr (usizePred build listLayer) .panic
  okOr (nthList layers n) (.unsupported "Lance list layer index is out of range")

/-- `u16::try_from`. -/
def tryU16 (n : ℕ) : Option UInt16 :=
  if n < 2 ^ 16 then some (UInt16.ofNat n) else none

/-- The loop up to the target layer; `cumulative` counts the modes passed. -/
def computeLoop (build : Build) (target : ℕ) (mode : DefMode) :
    List RepDefLayer → ℕ → ℕ → Except Stop UInt16
  | [], _, _ => .error (.unsupported "Lance termination layer is out of range")
  | layer :: rest, index, cumulative =>
      if index = target then do
        let position ← okOr (layer.defModes.idxOf? mode)
          (.unsupported "Lance layer does not declare the requested definition mode")
        let level ← okOr (build.narrow 32 (cumulative + position + 1)) .panic
        okOr (tryU16 level) (.unsupported "Lance definition level does not fit u16")
      else do
        let next ← okOr (build.narrow 32 (cumulative + layer.defModes.length)) .panic
        computeLoop build target mode rest (index + 1) next

/-- Computes the definition level for one event. -/
def computeDef (build : Build) (layers : List RepDefLayer) :
    Termination → Except Stop UInt16
  | .item => .ok 0
  | .nullItem => computeLoop build 0 .null layers 0 0
  | .nullStruct layer => do
      let target ← okOr (usizePred build layer) .panic
      computeLoop build target .null layers 0 0
  | .nullList listLayer => do
      let target ← listTarget build layers listLayer
      computeLoop build target .null layers 0 0
  | .emptyList listLayer => do
      let target ← listTarget build layers listLayer
      computeLoop build target .empty layers 0 0

/-! ### Places of levels -/

def totalModes (layers : List RepDefLayer) : ℕ := (layers.map (·.defModes.length)).sum

/-- The modes of the layers before `index`. -/
def modesBefore (layers : List RepDefLayer) (index : ℕ) : ℕ := totalModes (layers.take index)

/-- The level belongs to the mode of the layer at `index`. -/
structure Place (layers : List RepDefLayer) (level index : ℕ) (layer : RepDefLayer)
    (mode : DefMode) : Prop where
  layer_eq : layers[index]? = some layer
  level_eq : ∃ position, layer.defModes[position]? = some mode ∧
    level = modesBefore layers index + position + 1

section Places

variable {layers : List RepDefLayer} {layer other : RepDefLayer} {mode mode' : DefMode}
  {level level' index index' : ℕ}

theorem modesBefore_succ (h : layers[index]? = some layer) :
    modesBefore layers (index + 1) = modesBefore layers index + layer.defModes.length := by
  rw [modesBefore, List.take_add_one, h]
  simp [modesBefore, totalModes]

theorem modesBefore_mono {i j : ℕ} (h : i ≤ j) : modesBefore layers i ≤ modesBefore layers j := by
  have hsub : (layers.take i).Sublist (layers.take j) := List.take_sublist_take_left h
  exact (hsub.map _).sum_le_sum fun _ _ => Nat.zero_le _

theorem modesBefore_le (index : ℕ) : modesBefore layers index ≤ totalModes layers :=
  ((layers.take_sublist index).map _).sum_le_sum fun _ _ => Nat.zero_le _

theorem Place.le_next (h : Place layers level index layer mode) :
    level ≤ modesBefore layers (index + 1) := by
  obtain ⟨position, hposition, rfl⟩ := h.level_eq
  have hlt := (List.getElem?_eq_some_iff.mp hposition).1
  rw [modesBefore_succ h.layer_eq]
  omega

theorem Place.gt_before (h : Place layers level index layer mode) :
    modesBefore layers index < level := by
  obtain ⟨position, -, rfl⟩ := h.level_eq
  omega

/-- A level has one place. -/
theorem Place.unique (h : Place layers level index layer mode)
    (h' : Place layers level index' other mode') :
    index = index' ∧ layer = other ∧ mode = mode' := by
  have hindex : index = index' := by
    by_contra hne
    have hlt := h.gt_before
    have hlt' := h'.gt_before
    rcases Nat.lt_or_gt_of_ne hne with hgt | hgt
    · exact absurd (h.le_next.trans (modesBefore_mono hgt)) (Nat.not_le.mpr hlt')
    · exact absurd (h'.le_next.trans (modesBefore_mono hgt)) (Nat.not_le.mpr hlt)
  subst hindex
  obtain rfl : layer = other := Option.some.inj (h.layer_eq.symm.trans h'.layer_eq)
  obtain ⟨position, hmode, hlevel⟩ := h.level_eq
  obtain ⟨position', hmode', hlevel'⟩ := h'.level_eq
  obtain rfl : position = position' := by omega
  exact ⟨rfl, rfl, Option.some.inj (hmode.symm.trans hmode')⟩

theorem getElem?_defModes_iff {position : ℕ} :
    layer.defModes[position]? = some mode ↔ layer.defModes.idxOf? mode = some position := by
  cases layer <;> cases mode <;> rcases position with _ | _ | position <;>
    simp [RepDefLayer.defModes, List.idxOf?, List.findIdx?, List.findIdx?.go]

/-- A mode of a layer has one level. -/
theorem Place.level_unique (h : Place layers level index layer mode)
    (h' : Place layers level' index other mode) : level = level' := by
  obtain rfl : layer = other := Option.some.inj (h.layer_eq.symm.trans h'.layer_eq)
  obtain ⟨position, hmode, rfl⟩ := h.level_eq
  obtain ⟨position', hmode', rfl⟩ := h'.level_eq
  rw [getElem?_defModes_iff] at hmode hmode'
  rw [Option.some.inj (hmode.symm.trans hmode')]

/-- The levels from 1 to the number of modes are those that have a place. -/
theorem exists_place_iff :
    (∃ index layer mode, Place layers level index layer mode) ↔
      0 < level ∧ level ≤ totalModes layers := by
  constructor
  · rintro ⟨index, layer, mode, h⟩
    exact ⟨Nat.zero_lt_of_lt h.gt_before, h.le_next.trans (modesBefore_le _)⟩
  · rintro ⟨hpos, hle⟩
    induction layers generalizing level with
    | nil => exact absurd hle (Nat.not_le.mpr hpos)
    | cons first rest ih =>
        have htotal : totalModes (first :: rest) = first.defModes.length + totalModes rest := by
          simp [totalModes]
        by_cases hfirst : level ≤ first.defModes.length
        · have hlt : level - 1 < first.defModes.length := by omega
          exact ⟨0, first, first.defModes[level - 1], rfl, level - 1, List.getElem?_eq_getElem hlt,
            show level = 0 + (level - 1) + 1 by omega⟩
        · obtain ⟨index, layer, mode, hlayer, position, hmode, hlevel⟩ :=
            @ih (level - first.defModes.length) (by omega) (by omega)
          refine ⟨index + 1, layer, mode, hlayer, position, hmode, ?_⟩
          have hbefore : modesBefore (first :: rest) (index + 1) =
              first.defModes.length + modesBefore rest index := by
            simp [modesBefore, totalModes]
          omega

end Places

/-! ### The two loops -/

section Loops

variable {build : Build} {layers rest : List RepDefLayer} {layer : RepDefLayer} {index : ℕ}

/-- The layer the loop is at, and the layers behind it. -/
theorem of_drop_eq_cons (h : layers.drop index = layer :: rest) :
    layers[index]? = some layer ∧ layers.drop (index + 1) = rest := by
  constructor
  · rw [← List.head?_drop, h, List.head?_cons]
  · rw [← List.tail_drop, h, List.tail_cons]

theorem modesBefore_of_drop_eq_nil (h : layers.drop index = []) :
    modesBefore layers index = totalModes layers := by
  rw [modesBefore, List.take_of_length_le (List.drop_eq_nil_iff.mp h)]

theorem RepDefLayer.length_defModes_le (layer : RepDefLayer) : layer.defModes.length ≤ 2 := by
  cases layer <;> decide

/-- The count never leaves 32 bits, since the loop ends once it reaches the level. -/
theorem interpretLoop_eq_ok {level : ℕ} {termination : Termination} (hlevel : level < 2 ^ 16)
    (hrest : layers.drop index = rest) (hlt : modesBefore layers index < level) :
    interpretLoop build layers level rest index (modesBefore layers index) = .ok termination ↔
      ∃ index layer mode, Place layers level index layer mode ∧
        terminationAt layers index layer mode = .ok termination := by
  induction rest generalizing index with
  | nil =>
      refine ⟨fun h => (by cases h), ?_⟩
      rintro ⟨index', layer, mode, hplace, -⟩
      have hle := hplace.le_next.trans (modesBefore_le _)
      rw [← modesBefore_of_drop_eq_nil hrest] at hle
      exact absurd hle (Nat.not_le.mpr hlt)
  | cons layer rest ih =>
      obtain ⟨hlayer, hnext⟩ := of_drop_eq_cons hrest
      have hfits : modesBefore layers index + layer.defModes.length < 2 ^ 32 := by
        have := layer.length_defModes_le
        omega
      rw [interpretLoop, narrow_of_lt hfits]
      by_cases hle : level ≤ modesBefore layers index + layer.defModes.length
      · have hposition : level - modesBefore layers index - 1 < layer.defModes.length := by omega
        have hplace : Place layers level index layer
            layer.defModes[level - modesBefore layers index - 1] :=
          ⟨hlayer, _, List.getElem?_eq_getElem hposition, by omega⟩
        simp only [okOr, ok_bind, if_pos hle, List.getElem?_eq_getElem hposition]
        constructor
        · intro h
          exact ⟨_, _, _, hplace, h⟩
        · rintro ⟨index', layer', mode', hplace', h⟩
          obtain ⟨rfl, rfl, rfl⟩ := hplace.unique hplace'
          exact h
      · simp only [okOr, ok_bind, if_neg hle]
        rw [← modesBefore_succ hlayer] at hle ⊢
        exact ih hnext (Nat.lt_of_not_le hle)

theorem tryU16_eq_some {n : ℕ} {level : UInt16} : tryU16 n = some level ↔ level.toNat = n := by
  unfold tryU16
  constructor
  · intro h
    split at h
    · rename_i hlt
      rw [← Option.some.inj h]
      exact UInt16.toNat_ofNat_of_lt' hlt
    · cases h
  · rintro rfl
    rw [if_pos level.toNat_lt, UInt16.ofNat_toNat]

theorem computeLoop_eq_ok {target : ℕ} {mode : DefMode} {level : UInt16}
    (htotal : totalModes layers < 2 ^ 32) (hrest : layers.drop index = rest)
    (hle : index ≤ target) :
    computeLoop build target mode rest index (modesBefore layers index) = .ok level ↔
      ∃ layer, Place layers level.toNat target layer mode := by
  induction rest generalizing index with
  | nil =>
      refine ⟨fun h => (by cases h), ?_⟩
      rintro ⟨layer, hplace⟩
      have hlength := List.drop_eq_nil_iff.mp hrest
      have := (List.getElem?_eq_some_iff.mp hplace.layer_eq).1
      omega
  | cons layer rest ih =>
      obtain ⟨hlayer, hnext⟩ := of_drop_eq_cons hrest
      have hbefore := modesBefore_succ hlayer
      have hwithin : modesBefore layers (index + 1) ≤ totalModes layers := modesBefore_le _
      rw [computeLoop]
      by_cases hindex : index = target
      · subst hindex
        simp only [if_true, bind_eq_ok, okOr_eq_ok, ← getElem?_defModes_iff, tryU16_eq_some]
        constructor
        · rintro ⟨position, hposition, total, htotal', hsame⟩
          have hlt := (List.getElem?_eq_some_iff.mp hposition).1
          rw [narrow_of_lt (by omega)] at htotal'
          exact ⟨layer, hlayer, position, hposition, hsame.trans (Option.some.inj htotal').symm⟩
        · rintro ⟨layer', hlayer', position, hposition, hsame⟩
          obtain rfl := Option.some.inj (hlayer.symm.trans hlayer')
          have hlt := (List.getElem?_eq_some_iff.mp hposition).1
          exact ⟨position, hposition, _, narrow_of_lt (by omega), hsame⟩
      · rw [if_neg hindex, narrow_of_lt (by omega), ← hbefore]
        exact ih hnext (by omega)

theorem listsThrough_cons (first : RepDefLayer) :
    listsThrough (first :: layers) (index + 1) =
      (if first.isList then 1 else 0) + listsThrough layers index := by
  rw [listsThrough, List.take_succ_cons, List.filter_cons]
  split <;> simp [listsThrough, Nat.add_comm]

theorem listsThrough_zero (first : RepDefLayer) :
    listsThrough (first :: layers) 0 = if first.isList then 1 else 0 := by
  simp only [listsThrough, List.take_succ_cons, List.take_zero, List.filter_cons, List.filter_nil]
  split <;> rfl

theorem listsThrough_pos (h : layers[index]? = some layer) (hlist : layer.isList) :
    0 < listsThrough layers index := by
  obtain ⟨hlt, rfl⟩ := List.getElem?_eq_some_iff.mp h
  exact List.length_pos_of_mem (List.mem_filter.mpr
    ⟨List.mem_take_iff_getElem.mpr ⟨index, by omega, rfl⟩, hlist⟩)

/-- The list layers by their number, with positions counted from `offset`. -/
theorem getElem?_listLayers {offset n position : ℕ} :
    ((layers.zipIdx offset).filter (·.1.isList))[n]? = some (layer, position) ↔
      ∃ index, position = offset + index ∧ layers[index]? = some layer ∧ layer.isList ∧
        listsThrough layers index = n + 1 := by
  induction layers generalizing offset n with
  | nil => simp
  | cons first layers ih =>
      rw [List.zipIdx_cons, List.filter_cons]
      by_cases hfirst : first.isList
      · rw [if_pos hfirst]
        cases n with
        | zero =>
            rw [List.getElem?_cons_zero, Option.some_inj, Prod.mk.injEq]
            constructor
            · rintro ⟨rfl, rfl⟩
              exact ⟨0, rfl, rfl, hfirst, by rw [listsThrough_zero, if_pos hfirst]⟩
            · rintro ⟨_ | index, rfl, hlayer, hlist, hcount⟩
              · exact ⟨Option.some.inj hlayer, rfl⟩
              · -- a list layer behind the first one has a higher number
                have hbehind : layers[index]? = some layer := hlayer
                have := listsThrough_pos hbehind hlist
                rw [listsThrough_cons, if_pos hfirst] at hcount
                omega
        | succ n =>
            rw [List.getElem?_cons_succ, ih]
            constructor
            · rintro ⟨index, rfl, hlayer, hlist, hcount⟩
              exact ⟨index + 1, by omega, hlayer, hlist,
                by rw [listsThrough_cons, if_pos hfirst, hcount, Nat.add_comm]⟩
            · rintro ⟨_ | index, rfl, hlayer, hlist, hcount⟩
              · rw [listsThrough_zero, if_pos hfirst] at hcount
                omega
              · rw [listsThrough_cons, if_pos hfirst] at hcount
                exact ⟨index, by omega, hlayer, hlist, by omega⟩
      · rw [if_neg hfirst, ih]
        constructor
        · rintro ⟨index, rfl, hlayer, hlist, hcount⟩
          exact ⟨index + 1, by omega, hlayer, hlist,
            by rw [listsThrough_cons, if_neg hfirst, hcount, Nat.zero_add]⟩
        · rintro ⟨_ | index, rfl, hlayer, hlist, hcount⟩
          · exact absurd (Option.some.inj hlayer ▸ hlist) hfirst
          · rw [listsThrough_cons, if_neg hfirst] at hcount
            exact ⟨index, by omega, hlayer, hlist, by omega⟩

theorem nthList_eq_some {n : ℕ} :
    nthList layers n = some index ↔
      ∃ layer, layers[index]? = some layer ∧ layer.isList ∧ listsThrough layers index = n + 1 := by
  simp only [nthList, Option.map_eq_some_iff, Prod.exists, exists_eq_right]
  refine exists_congr fun layer => getElem?_listLayers.trans ⟨?_, ?_⟩
  · rintro ⟨index', rfl, h⟩
    rwa [Nat.zero_add]
  · intro h
    exact ⟨index, (Nat.zero_add index).symm, h⟩

/-- A slice has fewer than `2 ^ 63` layers, so that a number that wrapped around is
never one of theirs. -/
theorem usizePred_eq_some {n m : ℕ} (h : usizePred build n = some m) (hm : m < 2 ^ 63) :
    n = m + 1 := by
  unfold usizePred at h
  split at h
  · rw [← Option.some.inj h]
    omega
  · cases build with
    | checked => cases h
    | wrapping =>
        have := Option.some.inj h
        omega

theorem usizePred_succ (n : ℕ) : usizePred build (n + 1) = some n := if_pos n.succ_pos

theorem listTarget_eq_ok {listLayer : ℕ} (hlength : layers.length < 2 ^ 63) :
    listTarget build layers listLayer = .ok index ↔
      ∃ layer, layers[index]? = some layer ∧ layer.isList ∧
        listsThrough layers index = listLayer := by
  simp only [listTarget, bind_eq_ok, okOr_eq_ok]
  constructor
  · rintro ⟨n, hn, hnth⟩
    obtain ⟨layer, hlayer, hlist, hcount⟩ := nthList_eq_some.mp hnth
    have hle : listsThrough layers index ≤ layers.length :=
      (List.length_filter_le _ _).trans (List.length_take_le' _ _)
    exact ⟨layer, hlayer, hlist, hcount.trans (usizePred_eq_some hn (by omega)).symm⟩
  · rintro ⟨layer, hlayer, hlist, rfl⟩
    obtain ⟨n, hn⟩ := Nat.exists_eq_add_of_lt (listsThrough_pos hlayer hlist)
    rw [Nat.zero_add] at hn
    exact ⟨n, hn ▸ usizePred_succ n, nthList_eq_some.mpr ⟨layer, hlayer, hlist, hn⟩⟩

end Loops

/-! ### What a level denotes -/

/-- The terminations that the layers admit, with their levels. -/
inductive Denotes (layers : List RepDefLayer) : Termination → ℕ → Prop
  | item : Denotes layers .item 0
  | nullItem {level : ℕ} : Place layers level 0 .nullableItem .null → Denotes layers .nullItem level
  | nullStruct {level index : ℕ} : index ≠ 0 → Place layers level index .nullableItem .null →
      Denotes layers (.nullStruct (index + 1)) level
  | nullList {level index : ℕ} {layer : RepDefLayer} : layer.isList →
      Place layers level index layer .null → Denotes layers (.nullList (listsThrough layers index)) level
  | emptyList {level index : ℕ} {layer : RepDefLayer} : layer.isList →
      Place layers level index layer .empty →
      Denotes layers (.emptyList (listsThrough layers index)) level

/-- A null struct at a layer that is not one of a struct: at the item layer, or at one of
a list. No termination that is read has this form. -/
def NullElsewhere (layers : List RepDefLayer) (termination : Termination) (level : ℕ) : Prop :=
  ∃ index layer, termination = .nullStruct (index + 1) ∧ Place layers level index layer .null ∧
    (index = 0 ∨ layer.isList)

section Denotes

variable {layers : List RepDefLayer} {termination other : Termination} {level level' : ℕ}

theorem Place.eq_nullableItem {index : ℕ} {layer : RepDefLayer} {mode : DefMode}
    (h : Place layers level index layer mode) (hitem : ¬layer.isList) :
    layer = .nullableItem ∧ mode = .null := by
  obtain ⟨position, hmode, -⟩ := h.level_eq
  cases layer with
  | nullableItem =>
      cases position with
      | zero => exact ⟨rfl, (Option.some.inj hmode).symm⟩
      | succ position => cases hmode
  | allValidItem => cases hmode
  | allValidList | nullableList | emptyableList | nullAndEmptyList => exact absurd rfl hitem

/-- What is at the place of a level is what the level denotes. -/
theorem Place.denotes {index : ℕ} {layer : RepDefLayer} {mode : DefMode}
    (h : Place layers level index layer mode) :
    ∃ termination, terminationAt layers index layer mode = .ok termination ∧
      Denotes layers termination level := by
  by_cases hlist : layer.isList
  · cases mode with
    | null => exact ⟨_, by simp [terminationAt, hlist], .nullList hlist h⟩
    | empty => exact ⟨_, by simp [terminationAt, hlist], .emptyList hlist h⟩
  · obtain ⟨rfl, rfl⟩ := h.eq_nullableItem hlist
    by_cases hindex : index = 0
    · subst hindex
      exact ⟨_, rfl, .nullItem h⟩
    · exact ⟨_, if_neg hindex, .nullStruct hindex h⟩

/-- Reading finds the place of the level and says what is there. -/
theorem denotes_iff_place (hlevel : 0 < level) :
    Denotes layers termination level ↔
      ∃ index layer mode, Place layers level index layer mode ∧
        terminationAt layers index layer mode = .ok termination := by
  constructor
  · rintro (_ | hplace | ⟨hindex, hplace⟩ | ⟨hlist, hplace⟩ | ⟨hlist, hplace⟩)
    · exact absurd hlevel (Nat.lt_irrefl 0)
    · exact ⟨_, _, _, hplace, rfl⟩
    · exact ⟨_, _, _, hplace, if_neg hindex⟩
    · exact ⟨_, _, _, hplace, by simp [terminationAt, hlist]⟩
    · exact ⟨_, _, _, hplace, by simp [terminationAt, hlist]⟩
  · rintro ⟨index, layer, mode, hplace, h⟩
    obtain ⟨found, hfound, hdenotes⟩ := hplace.denotes
    obtain rfl := Except.ok.inj (h.symm.trans hfound)
    exact hdenotes

theorem denotes_zero : Denotes layers termination 0 ↔ termination = .item := by
  constructor
  · rintro (_ | hplace | ⟨-, hplace⟩ | ⟨-, hplace⟩ | ⟨-, hplace⟩)
    · rfl
    all_goals exact absurd hplace.gt_before (Nat.not_lt_zero _)
  · rintro rfl
    exact .item

theorem listsThrough_injective {index index' : ℕ} {layer layer' : RepDefLayer}
    (h : layers[index]? = some layer) (hlist : layer.isList)
    (h' : layers[index']? = some layer') (hlist' : layer'.isList)
    (hcount : listsThrough layers index = listsThrough layers index') : index = index' := by
  obtain ⟨n, hn⟩ := Nat.exists_eq_add_of_lt (listsThrough_pos h hlist)
  rw [Nat.zero_add] at hn
  have hfirst := nthList_eq_some.mpr ⟨layer, h, hlist, hn⟩
  have hsecond := nthList_eq_some.mpr ⟨layer', h', hlist', hcount ▸ hn⟩
  exact Option.some.inj (hfirst.symm.trans hsecond)

/-- One level for a termination. -/
theorem Denotes.level_unique (h : Denotes layers termination level)
    (h' : Denotes layers other level') (hsame : termination = other) : level = level' := by
  cases h with
  | item =>
      cases h' with
      | item => rfl
      | nullItem | nullStruct | nullList | emptyList => cases hsame
  | nullItem hplace =>
      cases h' with
      | nullItem hplace' => exact hplace.level_unique hplace'
      | item | nullStruct | nullList | emptyList => cases hsame
  | nullStruct hindex hplace =>
      cases h' with
      | nullStruct hindex' hplace' =>
          obtain rfl := Nat.succ.inj (Termination.nullStruct.inj hsame)
          exact hplace.level_unique hplace'
      | item | nullItem | nullList | emptyList => cases hsame
  | nullList hlist hplace =>
      cases h' with
      | nullList hlist' hplace' =>
          obtain rfl := listsThrough_injective hplace.layer_eq hlist hplace'.layer_eq hlist'
            (Termination.nullList.inj hsame)
          exact hplace.level_unique hplace'
      | item | nullItem | nullStruct | emptyList => cases hsame
  | emptyList hlist hplace =>
      cases h' with
      | emptyList hlist' hplace' =>
          obtain rfl := listsThrough_injective hplace.layer_eq hlist hplace'.layer_eq hlist'
            (Termination.emptyList.inj hsame)
          exact hplace.level_unique hplace'
      | item | nullItem | nullStruct | nullList => cases hsame

/-- The levels that denote something are those up to the number of modes. -/
theorem exists_denotes_iff : (∃ termination, Denotes layers termination level) ↔
    level ≤ totalModes layers := by
  rcases Nat.eq_zero_or_pos level with rfl | hpos
  · exact ⟨fun _ => Nat.zero_le _, fun _ => ⟨.item, .item⟩⟩
  · constructor
    · rintro ⟨termination, h⟩
      obtain ⟨index, layer, mode, hplace, -⟩ := (denotes_iff_place hpos).mp h
      exact (exists_place_iff.mp ⟨index, layer, mode, hplace⟩).2
    · intro hle
      obtain ⟨index, layer, mode, hplace⟩ := exists_place_iff.mpr ⟨hpos, hle⟩
      obtain ⟨termination, -, hdenotes⟩ := hplace.denotes
      exact ⟨termination, hdenotes⟩

end Denotes

/-! ### The code and the levels -/

section Code

variable {build : Build} {layers : List RepDefLayer} {termination : Termination} {level : UInt16}

theorem interpretDef_eq_ok :
    interpretDef build layers level = .ok termination ↔ Denotes layers termination level.toNat := by
  unfold interpretDef
  by_cases hzero : level = 0
  · subst hzero
    rw [if_pos rfl, show (0 : UInt16).toNat = 0 from rfl, denotes_zero, Except.ok.injEq]
    exact eq_comm
  · have hpos : 0 < level.toNat :=
      Nat.pos_of_ne_zero fun h => hzero (UInt16.toNat_inj.mp h)
    rw [if_neg hzero, denotes_iff_place hpos]
    exact interpretLoop_eq_ok level.toNat_lt (show layers.drop 0 = layers from rfl) hpos

theorem computeLoop_start {target : ℕ} {mode : DefMode} (htotal : totalModes layers < 2 ^ 32) :
    computeLoop build target mode layers 0 0 = .ok level ↔
      ∃ layer, Place layers level.toNat target layer mode :=
  computeLoop_eq_ok htotal (show layers.drop 0 = layers from rfl) target.zero_le

/-- A null struct is written for every layer that has a null. -/
theorem computeDef_nullStruct {n : ℕ} (hlength : layers.length < 2 ^ 63)
    (htotal : totalModes layers < 2 ^ 32) :
    computeDef build layers (.nullStruct n) = .ok level ↔
      ∃ index layer, n = index + 1 ∧ Place layers level.toNat index layer .null := by
  simp only [computeDef, bind_eq_ok, okOr_eq_ok, computeLoop_start htotal]
  constructor
  · rintro ⟨target, hn, layer, hplace⟩
    have hlt := (List.getElem?_eq_some_iff.mp hplace.layer_eq).1
    exact ⟨target, layer, usizePred_eq_some hn (by omega), hplace⟩
  · rintro ⟨index, layer, rfl, hplace⟩
    exact ⟨index, usizePred_succ index, layer, hplace⟩

theorem listTarget_computeLoop {n : ℕ} {mode : DefMode} (hlength : layers.length < 2 ^ 63)
    (htotal : totalModes layers < 2 ^ 32) :
    (listTarget build layers n >>= fun target => computeLoop build target mode layers 0 0) = .ok level ↔
      ∃ index layer, layer.isList ∧ listsThrough layers index = n ∧
        Place layers level.toNat index layer mode := by
  simp only [bind_eq_ok, listTarget_eq_ok hlength, computeLoop_start htotal]
  constructor
  · rintro ⟨index, ⟨layer, hlayer, hlist, hcount⟩, layer', hplace⟩
    obtain rfl := Option.some.inj (hlayer.symm.trans hplace.layer_eq)
    exact ⟨index, layer, hlist, hcount, hplace⟩
  · rintro ⟨index, layer, hlist, hcount, hplace⟩
    exact ⟨index, ⟨layer, hplace.layer_eq, hlist, hcount⟩, layer, hplace⟩

theorem computeDef_eq_ok (hfirst : ∀ layer ∈ layers.head?, ¬layer.isList)
    (hlength : layers.length < 2 ^ 63) (htotal : totalModes layers < 2 ^ 32) :
    computeDef build layers termination = .ok level ↔
      Denotes layers termination level.toNat ∨ NullElsewhere layers termination level.toNat := by
  cases termination with
  | item =>
      constructor
      · intro h
        obtain rfl := Except.ok.inj h
        exact .inl .item
      · rintro (h | ⟨index, layer, h, -⟩)
        · have hzero : level.toNat = 0 := h.level_unique .item rfl
          exact congrArg Except.ok (UInt16.toNat_inj.mp hzero).symm
        · cases h
  | nullItem =>
      refine (computeLoop_start htotal).trans ⟨?_, ?_⟩
      · rintro ⟨layer, hplace⟩
        have hhead : layer ∈ layers.head? := List.head?_eq_getElem? ▸ hplace.layer_eq
        obtain ⟨rfl, -⟩ := hplace.eq_nullableItem (hfirst layer hhead)
        exact .inl (.nullItem hplace)
      · rintro (h | ⟨index, layer, h, -⟩)
        · cases h with
          | nullItem hplace => exact ⟨_, hplace⟩
        · cases h
  | nullStruct n =>
      refine (computeDef_nullStruct hlength htotal).trans ⟨?_, ?_⟩
      · rintro ⟨index, layer, rfl, hplace⟩
        by_cases helse : index = 0 ∨ layer.isList
        · exact .inr ⟨index, layer, rfl, hplace, helse⟩
        · obtain ⟨hindex, hitem⟩ := not_or.mp helse
          obtain ⟨rfl, -⟩ := hplace.eq_nullableItem hitem
          exact .inl (.nullStruct hindex hplace)
      · rintro (h | ⟨index, layer, h, hplace, -⟩)
        · cases h with
          | nullStruct hindex hplace => exact ⟨_, _, rfl, hplace⟩
        · exact ⟨index, layer, Termination.nullStruct.inj h, hplace⟩
  | nullList n =>
      refine (listTarget_computeLoop hlength htotal).trans ⟨?_, ?_⟩
      · rintro ⟨index, layer, hlist, rfl, hplace⟩
        exact .inl (.nullList hlist hplace)
      · rintro (h | ⟨index, layer, h, -⟩)
        · cases h with
          | nullList hlist hplace => exact ⟨_, _, hlist, rfl, hplace⟩
        · cases h
  | emptyList n =>
      refine (listTarget_computeLoop hlength htotal).trans ⟨?_, ?_⟩
      · rintro ⟨index, layer, hlist, rfl, hplace⟩
        exact .inl (.emptyList hlist hplace)
      · rintro (h | ⟨index, layer, h, -⟩)
        · cases h with
          | emptyList hlist hplace => exact ⟨_, _, hlist, rfl, hplace⟩
        · cases h

end Code

/-- Levels and the terminations that the layers admit determine each other, and both
functions follow that correspondence as far as levels fit 16 bits. Beyond it, a null
struct for a layer of another kind is written as the null of that layer. -/
theorem definition_levels_correspond (build : Build) (layers : List RepDefLayer)
    (hfirst : ∃ layer, layers.head? = some layer ∧ layer.isList = false)
    (hlength : layers.length < 2 ^ 63) (htotal : totalModes layers < 2 ^ 32) :
    (∀ level : UInt16, (∃ termination, interpretDef build layers level = .ok termination) ↔
      level.toNat ≤ totalModes layers) ∧
    (∀ (termination : Termination) (level : UInt16),
      computeDef build layers termination = .ok level ↔
        Denotes layers termination level.toNat ∨ NullElsewhere layers termination level.toNat) ∧
    (∀ level termination, interpretDef build layers level = .ok termination ↔
      (∃ n, Denotes layers termination n) ∧ computeDef build layers termination = .ok level) := by
  have hhead : ∀ layer ∈ layers.head?, ¬layer.isList := by
    obtain ⟨first, hfirst, hitem⟩ := hfirst
    intro layer hlayer
    obtain rfl := Option.some.inj (hfirst.symm.trans hlayer)
    rw [hitem]
    exact Bool.false_ne_true
  refine ⟨fun level => ?_, fun termination level => computeDef_eq_ok hhead hlength htotal,
    fun level termination => ?_⟩
  · simp only [interpretDef_eq_ok, exists_denotes_iff]
  · rw [interpretDef_eq_ok, computeDef_eq_ok hhead hlength htotal]
    constructor
    · intro h
      exact ⟨⟨_, h⟩, .inl h⟩
    · rintro ⟨⟨n, hn⟩, h | ⟨index, layer, rfl, hplace, helse⟩⟩
      · exact h
      · -- a null struct that is admitted is not one elsewhere
        cases hn with
        | nullStruct hindex hplace' =>
            obtain rfl := Option.some.inj (hplace.layer_eq.symm.trans hplace'.layer_eq)
            exact absurd helse (not_or.mpr ⟨hindex, Bool.false_ne_true⟩)

/-- Items that may be null in lists that may be null or empty. -/
theorem nullable_lists_correspond :
    (∃ layer, [RepDefLayer.nullableItem, .nullAndEmptyList].head? = some layer ∧
      layer.isList = false) ∧
    (∀ level : UInt16, (∃ termination, interpretDef .wrapping
        [.nullableItem, .nullAndEmptyList] level = .ok termination) ↔ level.toNat ≤ 3) :=
  ⟨⟨_, rfl, rfl⟩, (definition_levels_correspond .wrapping [.nullableItem, .nullAndEmptyList]
    ⟨_, rfl, rfl⟩ (by decide) (by decide)).1⟩

/-- A null struct at a layer of lists is written as the null list there. -/
theorem nullStruct_written_at_list :
    computeDef .wrapping [.allValidItem, .nullableList] (.nullStruct 2) = .ok 1 ∧
      interpretDef .wrapping [.allValidItem, .nullableList] 1 = .ok (.nullList 1) ∧
      ¬∃ n, Denotes [.allValidItem, .nullableList] (.nullStruct 2) n := by
  refine ⟨by decide, by decide, ?_⟩
  rintro ⟨n, h⟩
  cases h with
  | nullStruct _ hplace => cases hplace.layer_eq

end Maskura.Lance

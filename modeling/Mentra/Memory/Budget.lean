import Mentra.Memory.Shape

/-!
# The tool-result byte budget

The loops of `budget_tool_result_history` work on messages through locations.  `Represents`
reads their state as a list of cells, one for each tool result: the sizes shown and the bytes
remaining add up to the budget, and a cell has an action exactly when its content was changed.
-/

namespace Mentra.Memory

open Mentra.Foundation List Lists
open Mentra.Foundation.Usize (checkedSub checkedAdd saturatingAdd checkedSub_eq_some
  checkedAdd_eq_some_iff)

variable {V : Type}

/-! ## Cells -/

/-- One tool result during the budget loops. -/
structure Cell (V : Type) where
  canonical : ToolResultContent V
  content : ToolResultContent V
  action : Option ToolResultElisionAction

/-- An action is recorded exactly when the content was changed. -/
def Cell.Honest (cell : Cell V) : Prop :=
  cell.action = none ↔ cell.content = cell.canonical

/-- The loops' state read as cells, in history order. -/
structure Represents (history : List (Message V)) (state : Projection V)
    (cells : List (Cell V)) : Prop where
  shape : SameShape history state.messages
  canonical : resultContents history = cells.map Cell.canonical
  contents : resultContents state.messages = cells.map Cell.content
  actions : state.actions = cells.map Cell.action

variable {location : ToolResultLocation}

namespace Represents

variable {history : List (Message V)} {state : Projection V} {cells : List (Cell V)}

section

variable (represents : Represents history state cells)
include represents

theorem length_eq : (toolResultLocations history).length = cells.length := by
  have lengths := congrArg List.length (map_projectedContent_self history)
  rw [represents.canonical] at lengths
  simpa using lengths

theorem map_canonical :
    (toolResultLocations history).map (canonicalContent history) =
      cells.map (some ∘ Cell.canonical) := by
  rw [← map_map, ← represents.canonical]
  exact map_projectedContent_self history

theorem map_content :
    (toolResultLocations history).map (projectedContent state.messages) =
      cells.map (some ∘ Cell.content) := by
  rw [← map_map, ← represents.contents]
  exact represents.shape.map_projectedContent

theorem read {index : Nat} (bound : index < (toolResultLocations history).length) :
    ∃ location cell, (toolResultLocations history)[index]? = some location ∧
      cells[index]? = some cell ∧ canonicalContent history location = some cell.canonical ∧
      projectedContent state.messages location = some cell.content ∧
      state.actions[index]? = some cell.action := by
  have cellBound : index < cells.length := represents.length_eq ▸ bound
  have location := getElem?_eq_getElem bound
  have cell := getElem?_eq_getElem cellBound
  have canonical := congrArg (·[index]?) represents.map_canonical
  have content := congrArg (·[index]?) represents.map_content
  simp only [getElem?_map, location, cell, Option.map_some, Option.some.injEq] at canonical
  simp only [getElem?_map, location, cell, Option.map_some, Option.some.injEq] at content
  refine ⟨_, _, location, cell, canonical, content, ?_⟩
  rw [represents.actions, getElem?_map, cell, Option.map_some]

/-- Writing content and action at an index rewrites that cell. -/
theorem write {index : Nat} {cell : Cell V}
    (located : (toolResultLocations history)[index]? = some location)
    (found : cells[index]? = some cell)
    (read : projectedContent state.messages location = some cell.content)
    (content : ToolResultContent V) (action : Option ToolResultElisionAction) (remaining : Nat) :
    ∃ written, setProjectedContent state.messages location content = some written ∧
      Represents history ⟨written, state.actions.set index action, remaining⟩
        (cells.set index { cell with content, action }) := by
  obtain ⟨written, wrote, shape, here, elsewhere⟩ := setProjectedContent_spec read content
  refine ⟨written, wrote, represents.shape.trans shape, ?_, ?_, ?_⟩
  · have kept : (cells.map Cell.canonical)[index]? = some cell.canonical := by
      rw [getElem?_map, found, Option.map_some]
    rw [represents.canonical, map_set, set_eq_self kept]
  · have distinct : ((toolResultLocations history).map position).Nodup := by
      rw [toolResultLocations_position]
      exact positionsFrom_nodup 0 history
    have updated := map_eq_set distinct located elsewhere
    rw [(represents.shape.trans shape).map_projectedContent,
      represents.shape.map_projectedContent, here, ← map_set] at updated
    rw [map_injective_iff.mpr (fun _ _ => Option.some.inj) updated, represents.contents, map_set]
  · rw [represents.actions, map_set]

end

end Represents

section Sizes

variable [SerdeJson V]

def Cell.size (cell : Cell V) : Nat :=
  cell.content.len

/-- A cell whose content was changed shows less than it had. -/
structure Cell.Reduced (cell : Cell V) : Prop where
  honest : cell.Honest
  shorter : cell.action ≠ none → cell.content.len < cell.canonical.len

theorem Cell.Reduced.of_shorter {cell : Cell V} (acted : cell.action ≠ none)
    (shorter : cell.content.len < cell.canonical.len) : cell.Reduced := by
  refine ⟨iff_of_false acted ?_, fun _ => shorter⟩
  intro same
  rw [same] at shorter
  exact Nat.lt_irrefl _ shorter

theorem Cell.Reduced.of_whole (canonical : ToolResultContent V) :
    Cell.Reduced ⟨canonical, canonical, none⟩ :=
  ⟨iff_of_true rfl rfl, fun acted => absurd rfl acted⟩

/-! ## The pieces shown -/

/-- What the first loop shows fits, and it is the content or less. -/
theorem floorContent_spec (canonical : ToolResultContent V) (marker : String) (remaining : Nat) :
    (floorContent canonical marker remaining).1.len ≤ remaining ∧
      Cell.Reduced ⟨canonical, (floorContent canonical marker remaining).1,
        (floorContent canonical marker remaining).2⟩ := by
  have omitted (long : remaining < canonical.len) :
      let shown : ToolResultContent V × Option ToolResultElisionAction :=
        if omittedEllipsis.utf8ByteSize ≤ remaining then (.text omittedEllipsis, some .omitted)
        else (.text "", some .omitted)
      shown.1.len ≤ remaining ∧ Cell.Reduced ⟨canonical, shown.1, shown.2⟩ := by
    split
    · rename_i fits
      exact ⟨fits, .of_shorter nofun (Nat.lt_of_le_of_lt fits long)⟩
    · exact ⟨Nat.zero_le _, .of_shorter nofun (Nat.lt_of_le_of_lt (Nat.zero_le _) long)⟩
  unfold floorContent
  by_cases short : canonical.len ≤ marker.utf8ByteSize
  · simp only [if_pos short]
    split
    · exact ⟨by assumption, .of_whole canonical⟩
    · exact omitted (by omega)
  · simp only [if_neg short, ToolResultContent.len_text]
    split
    · rename_i fits
      exact ⟨fits, .of_shorter nofun (Nat.lt_of_not_le short)⟩
    · exact omitted (by omega)

/-- Head and tail are cut on character boundaries, so nothing panics. -/
theorem headAndTail_spec (canonical : String) (currentLen previewLimit : Nat)
    (room : previewSeparator.utf8ByteSize ≤ previewLimit) :
    ∃ result, headAndTail canonical currentLen previewLimit = some result ∧
      ∀ preview ∈ result, currentLen < preview.utf8ByteSize ∧
        preview.utf8ByteSize ≤ previewLimit ∧
        preview.utf8ByteSize < canonical.utf8ByteSize := by
  simp only [headAndTail, checkedSub_eq_some room, Option.bind_eq_bind, Option.bind_some]
  generalize (previewLimit - previewSeparator.utf8ByteSize + 1) / 2 = headBudget
  generalize (previewLimit - previewSeparator.utf8ByteSize) / 2 = tailBudget
  have headBoundary := Utf8.isCharBoundary_floorBoundary canonical
    (min headBudget canonical.utf8ByteSize)
  have tailBoundary := Utf8.isCharBoundary_ceilBoundary
    (Nat.sub_le canonical.utf8ByteSize tailBudget)
  split
  · exact ⟨none, rfl, by simp⟩
  · rename_i order
    rw [not_or, not_or, Nat.not_le] at order
    obtain ⟨middle, middleEq⟩ := Utf8.exists_slice headBoundary tailBoundary order.2.2.le
    obtain ⟨head, headEq⟩ := Utf8.exists_sliceTo headBoundary
    obtain ⟨tail, tailEq⟩ := Utf8.exists_sliceFrom tailBoundary
    simp only [middleEq, headEq, tailEq, Option.bind_some]
    split
    · exact ⟨none, rfl, by simp⟩
    · refine ⟨_, rfl, ?_⟩
      intro preview mem
      rw [Option.mem_def, Option.ite_none_right_eq_some, Option.some.injEq] at mem
      obtain ⟨sizes, rfl⟩ := mem
      exact sizes

/-- A preview does not panic, is longer than what is shown now, within the allowance and shorter
than the text. -/
theorem textPreview_spec (canonical : String) (currentLen allowance maxPreviewBytes : Nat) :
    ∃ result, textPreview canonical currentLen allowance maxPreviewBytes = some result ∧
      ∀ preview ∈ result, currentLen < preview.utf8ByteSize ∧
        preview.utf8ByteSize ≤ allowance ∧ preview.utf8ByteSize < canonical.utf8ByteSize := by
  simp only [textPreview]
  split
  · exact ⟨none, rfl, by simp⟩
  · split
    · exact ⟨none, rfl, by simp⟩
    · rename_i canonicalLimit _ room
      rw [not_or, Nat.not_le, Nat.not_le] at room
      obtain ⟨result, computed, sizes⟩ := headAndTail_spec canonical currentLen
        (min (min maxPreviewBytes allowance) canonicalLimit) room.2.le
      refine ⟨result, computed, ?_⟩
      intro preview mem
      obtain ⟨longer, within, shorter⟩ := sizes preview mem
      exact ⟨longer, by omega, shorter⟩

/-! ## The loops -/

/-- Once the cells from `first` on have their floor: actions are honest, and what those cells
show and what remains add up to the budget. -/
def Within (history : List (Message V)) (maxBytes first : Nat) (state : Projection V) : Prop :=
  ∃ cells, Represents history state cells ∧ (∀ cell ∈ cells, cell.Honest) ∧
    ((cells.drop first).map Cell.size).sum + state.remaining = maxBytes

/-- The same with the cells whose content was to be restored: those that still show
less need more than what remains. -/
def Settled (history : List (Message V)) (maxBytes first : Nat) (tried : Nat → Prop)
    (state : Projection V) : Prop :=
  ∃ cells, Represents history state cells ∧ (∀ cell ∈ cells, cell.Reduced) ∧
    ((cells.drop first).map Cell.size).sum + state.remaining = maxBytes ∧
    ∀ index cell, tried index → cells[index]? = some cell →
      cell.action = none ∨ cell.content.len + state.remaining < cell.canonical.len

section Loops

variable {history : List (Message V)} {maxBytes index : Nat} {state : Projection V}
  {tried : Nat → Prop}

theorem Settled.within {first : Nat} (settled : Settled history maxBytes first tried state) :
    Within history maxBytes first state := by
  obtain ⟨cells, represents, reduced, total, -⟩ := settled
  exact ⟨cells, represents, fun cell mem => (reduced cell mem).honest, total⟩

theorem reduced_set {cells : List (Cell V)} {cell : Cell V}
    (reduced : ∀ cell ∈ cells, cell.Reduced) (here : cell.Reduced) :
    ∀ other ∈ cells.set index cell, other.Reduced := by
  intro other mem
  rcases mem_or_eq_of_mem_set mem with old | rfl
  · exact reduced other old
  · exact here

/-- One round of the first loop gives one more cell its floor. -/
theorem establishFloor_spec (bound : index < (toolResultLocations history).length)
    (settled : Settled history maxBytes (index + 1) (fun _ => False) state) :
    ∃ next, establishFloor history (toolResultLocations history) state index = some next ∧
      Settled history maxBytes index (fun _ => False) next := by
  obtain ⟨cells, represents, reduced, total, -⟩ := settled
  obtain ⟨location, cell, located, found, canonical, read, -⟩ := represents.read bound
  obtain ⟨fits, reducedFloor⟩ := floorContent_spec cell.canonical
    (previousToolMarker location.toolName) state.remaining
  generalize floored : floorContent cell.canonical (previousToolMarker location.toolName)
    state.remaining = shown at fits reducedFloor
  obtain ⟨content, action⟩ := shown
  change content.len ≤ state.remaining at fits
  obtain ⟨written, wrote, represents'⟩ := represents.write located found read content action
    (state.remaining - content.len)
  refine ⟨_, ?_, _, represents', reduced_set reduced reducedFloor, ?_, fun _ _ => False.elim⟩
  · simp only [establishFloor, located, canonical, floored, checkedSub_eq_some fits, wrote,
      Option.bind_eq_bind, Option.bind_some]
    rfl
  · rw [drop_set_self found]
    simp only [map_cons, sum_cons, Cell.size] at total ⊢
    omega

/-- Rewriting one cell keeps the invariant when what it grows by is taken from
what remains. -/
theorem Settled.rewrite {cells : List (Cell V)} {cell : Cell V}
    (represents : Represents history state cells) (reduced : ∀ cell ∈ cells, cell.Reduced)
    (total : ((cells.drop 0).map Cell.size).sum + state.remaining = maxBytes)
    (refused : ∀ other cell, tried other → other ≠ index → cells[other]? = some cell →
      cell.action = none ∨ cell.content.len + state.remaining < cell.canonical.len)
    (located : (toolResultLocations history)[index]? = some location)
    (found : cells[index]? = some cell)
    (read : projectedContent state.messages location = some cell.content)
    (content : ToolResultContent V) (action : Option ToolResultElisionAction) (remaining : Nat)
    (here : Cell.Reduced ⟨cell.canonical, content, action⟩) (grows : cell.content.len ≤ content.len)
    (balance : content.len + remaining = cell.content.len + state.remaining)
    (refusedHere : tried index → action = none ∨ content.len + remaining < cell.canonical.len) :
    ∃ written, setProjectedContent state.messages location content = some written ∧
      Settled history maxBytes 0 tried ⟨written, state.actions.set index action, remaining⟩ := by
  obtain ⟨written, wrote, represents'⟩ :=
    represents.write located found read content action remaining
  refine ⟨written, wrote, _, represents', reduced_set reduced here, ?_, ?_⟩
  · have resized := sum_map_set Cell.size found { cell with content, action }
    simp only [drop_zero, Cell.size] at total resized ⊢
    omega
  · intro other otherCell isTried isCell
    by_cases same : other = index
    · subst same
      rw [getElem?_set_of_some found, if_pos rfl] at isCell
      cases isCell
      exact refusedHere isTried
    · rw [getElem?_set_ne (Ne.symm same)] at isCell
      have less : remaining ≤ state.remaining := by omega
      exact (refused other otherCell isTried same isCell).imp_right fun short =>
        Nat.lt_of_le_of_lt (Nat.add_le_add_left less _) short

theorem tryRestoreFull_spec (bound : index < (toolResultLocations history).length)
    (settled : Settled history maxBytes 0 tried state) :
    ∃ next, tryRestoreFull history (toolResultLocations history) state index = some next ∧
      Settled history maxBytes 0 (fun other => other = index ∨ tried other) next := by
  obtain ⟨cells, represents, reduced, total, refused⟩ := settled
  obtain ⟨location, cell, located, found, canonical, read, acted⟩ := represents.read bound
  have unchanged
      (here : cell.action = none ∨ cell.content.len + state.remaining < cell.canonical.len) :
      Settled history maxBytes 0 (fun other => other = index ∨ tried other) state := by
    refine ⟨cells, represents, reduced, total, ?_⟩
    rintro other otherCell (rfl | isTried) isCell
    · cases found.symm.trans isCell
      exact here
    · exact refused other otherCell isTried isCell
  simp only [tryRestoreFull, located, canonical, read, acted, Option.bind_eq_bind, Option.bind_some]
  split
  · rename_i whole
    exact ⟨state, rfl, unchanged (.inl (Option.isNone_iff_eq_none.mp whole))⟩
  · rename_i changed
    have shorter := (reduced cell (mem_of_getElem? found)).shorter
      (fun none => changed (Option.isNone_iff_eq_none.mpr none))
    rw [checkedSub_eq_some (Nat.le_of_lt shorter)]
    dsimp only
    split
    · rename_i tooLong
      exact ⟨state, rfl, unchanged (.inr (by omega))⟩
    · rename_i enough
      have refused' (other : Nat) (otherCell : Cell V) (isTried : other = index ∨ tried other)
          (apart : other ≠ index) := refused other otherCell (isTried.resolve_left apart)
      obtain ⟨written, wrote, settled⟩ := Settled.rewrite represents reduced total refused' located
        found read cell.canonical none
        (state.remaining - (cell.canonical.len - cell.content.len)) (.of_whole cell.canonical)
        (Nat.le_of_lt shorter) (by omega) (fun _ => .inl rfl)
      refine ⟨_, ?_, settled⟩
      simp only [wrote, checkedSub_eq_some (Nat.le_of_not_lt enough), Option.bind_some]
      rfl

theorem tryUpgradePreview_spec (maxPreviewBytes : Nat)
    (bound : index < (toolResultLocations history).length)
    (settled : Settled history maxBytes 0 tried state) :
    ∃ next, tryUpgradePreview history (toolResultLocations history) maxPreviewBytes state index =
        some next ∧
      Settled history maxBytes 0 tried next := by
  have unchanged := settled
  obtain ⟨cells, represents, reduced, total, refused⟩ := settled
  obtain ⟨location, cell, located, found, canonical, read, acted⟩ := represents.read bound
  simp only [tryUpgradePreview, located, canonical, read, acted, Option.bind_eq_bind,
    Option.bind_some]
  split
  · exact ⟨state, rfl, unchanged⟩
  · rename_i changed
    split
    · exact ⟨state, rfl, unchanged⟩
    · rename_i text isText
      split
      · exact ⟨state, rfl, unchanged⟩
      · rename_i allowance added
        obtain ⟨-, rfl⟩ := checkedAdd_eq_some_iff.mp added
        obtain ⟨result, computed, sizes⟩ := textPreview_spec text cell.content.len
          (cell.content.len + state.remaining) maxPreviewBytes
        rw [computed, Option.bind_some]
        cases result with
        | none => exact ⟨state, rfl, unchanged⟩
        | some preview =>
          obtain ⟨longer, fits, shorter⟩ := sizes preview rfl
          have grown := checkedSub_eq_some longer.le
          have enough : preview.utf8ByteSize - cell.content.len ≤ state.remaining := by omega
          have balance : preview.utf8ByteSize +
              (state.remaining - (preview.utf8ByteSize - cell.content.len)) =
                cell.content.len + state.remaining := by omega
          -- What a preview adds to the cell is what it takes from the rest.
          have refusedHere (isTried : tried index) :=
            (refused index cell isTried found).resolve_left
              fun none => changed (Option.isNone_iff_eq_none.mpr none)
          obtain ⟨written, wrote, settled⟩ := Settled.rewrite represents reduced total
            (fun other otherCell isTried _ => refused other otherCell isTried) located found read
            (.text preview) (some .preview) _ (.of_shorter nofun (isText ▸ shorter)) longer.le
            balance (fun isTried => .inr (balance ▸ refusedHere isTried))
          refine ⟨_, ?_, settled⟩
          simp only [grown, wrote, checkedSub_eq_some enough, Option.bind_some]
          rfl

/-- Before the first loop every result shows its own content. -/
theorem settled_initial (history : List (Message V)) (maxBytes : Nat) :
    Settled history maxBytes (toolResultLocations history).length (fun _ => False)
      ⟨history, List.replicate (toolResultLocations history).length none, maxBytes⟩ := by
  have lengths := congrArg List.length (map_projectedContent_self history)
  rw [length_map, length_map] at lengths
  refine ⟨(resultContents history).map fun content => ⟨content, content, none⟩, ?_, ?_, ?_,
    fun _ _ => False.elim⟩
  · refine ⟨.refl history, ?_, ?_, ?_⟩
    · rw [map_map]
      exact (map_id _).symm
    · rw [map_map]
      exact (map_id _).symm
    · rw [map_map, lengths]
      exact map_const'.symm
  · intro cell mem
    obtain ⟨content, -, rfl⟩ := mem_map.mp mem
    exact .of_whole content
  · rw [drop_eq_nil_of_le (by rw [length_map, lengths])]
    simp

/-- A loop that restores results tries all of its indices. -/
theorem restoreLoop_spec (indices : List Nat)
    (bounds : ∀ index ∈ indices, index < (toolResultLocations history).length)
    (settled : Settled history maxBytes 0 tried state) :
    ∃ final, indices.foldlM (tryRestoreFull history (toolResultLocations history)) state =
        some final ∧
      Settled history maxBytes 0 (fun index => index ∈ indices ∨ tried index) final := by
  induction indices generalizing state tried with
  | nil =>
    refine ⟨state, rfl, ?_⟩
    simpa using settled
  | cons index indices ih =>
    rw [forall_mem_cons] at bounds
    obtain ⟨next, restored, settled⟩ := tryRestoreFull_spec bounds.1 settled
    obtain ⟨final, looped, settled⟩ := ih bounds.2 settled
    refine ⟨final, by rw [foldlM_cons, restored]; exact looped, ?_⟩
    simpa [mem_cons, or_left_comm, or_assoc] using settled

/-- The four loops run without a panic, keep the invariant and try every result. -/
theorem project_spec (history : List (Message V)) (budget : ProjectedToolResultBudget) :
    ∃ final, project history (toolResultLocations history) budget = some final ∧
      Settled history budget.maxBytes 0
        (fun index => index < (toolResultLocations history).length) final := by
  generalize recent : (toolResultLocations history).length - budget.prioritizeRecentResults = start
  obtain ⟨floored, floorLoop, settled⟩ := foldlM_countdown
    (fun first => Settled history budget.maxBytes first fun _ => False)
    (toolResultLocations history).length
    (fun index bound state settled => establishFloor_spec bound settled)
    (settled_initial history budget.maxBytes)
  obtain ⟨restored, recentLoop, settled⟩ := restoreLoop_spec
    (List.range' start ((toolResultLocations history).length - start)).reverse
    (fun index mem => by rw [mem_reverse, mem_range'_1] at mem; omega) settled
  obtain ⟨previewed, previewLoop, settled⟩ := foldlM_countdown (fun _ => Settled _ _ _ _)
    (toolResultLocations history).length
    (fun index bound state settled =>
      tryUpgradePreview_spec budget.maxPreviewBytes bound settled) settled
  obtain ⟨final, historicalLoop, settled⟩ := restoreLoop_spec (List.range start).reverse
    (fun index mem => by rw [mem_reverse, mem_range] at mem; omega) settled
  refine ⟨final, ?_, ?_⟩
  · simp only [project, recent, floorLoop, recentLoop, previewLoop, historicalLoop,
      Option.bind_eq_bind, Option.bind_some]
  · obtain ⟨cells, represents, reduced, total, refused⟩ := settled
    refine ⟨cells, represents, reduced, total, fun index cell bound => refused index cell ?_⟩
    simp only [mem_reverse, mem_range, mem_range'_1]
    omega

end Loops

/-! ## Totals -/

variable (messages : List (Message V))

/-- The exact total of the tool results shown. -/
def resultBytes : Nat :=
  ((resultContents messages).map ToolResultContent.len).sum

theorem sum_blockContentBytes (content : List (ContentBlock V)) :
    (content.map blockContentBytes).sum =
      ((content.filterMap resultContent).map ToolResultContent.len).sum := by
  induction content with
  | nil => rfl
  | cons block content ih =>
    cases block <;> simp [blockContentBytes, resultContent, filterMap_cons, ih]

theorem resultBytes_eq_sum :
    ((messages.flatMap Message.content).map blockContentBytes).sum = resultBytes messages := by
  rw [sum_blockContentBytes, filterMap_flatMap, resultBytes, resultContents]

/-- The computed total is the exact one, cut off at the largest word. -/
theorem toolResultContentBytes_eq :
    toolResultContentBytes messages = min (resultBytes messages) Usize.max := by
  rw [toolResultContentBytes, ← foldl_flatMap, ← foldl_map, ← resultBytes_eq_sum]
  have total := Usize.foldl_saturatingAdd
    ((messages.flatMap Message.content).map blockContentBytes) 0
  rwa [Nat.zero_min, Nat.zero_add] at total

variable (history : List (Message V))

theorem canonicalBytes_eq :
    ((toolResultLocations history).foldlM (fun total location =>
      (canonicalContent history location).map fun canonical =>
        saturatingAdd total canonical.len) 0) =
      some (toolResultContentBytes history) := by
  have total := Usize.foldl_saturatingAdd ((resultContents history).map ToolResultContent.len) 0
  rw [Nat.zero_min, Nat.zero_add, foldl_map] at total
  rw [toolResultContentBytes_eq, resultBytes, ← total]
  exact foldlM_read (map_projectedContent_self history)
    (fun total content => saturatingAdd total content.len) 0

theorem Within.resultBytes_le {history : List (Message V)} {maxBytes : Nat}
    {state : Projection V} (within : Within history maxBytes 0 state) :
    resultBytes state.messages ≤ maxBytes := by
  obtain ⟨cells, represents, -, total⟩ := within
  rw [resultBytes, represents.contents, map_map]
  exact Nat.le_of_add_right_le total.le

/-! ## The report -/

/-- The tool results of a history: call id, content and error flag. -/
def toolResults (history : List (Message V)) : List (String × ToolResultContent V × Bool) :=
  history.flatMap fun message => message.content.filterMap fun block =>
    match block with
    | .toolResult toolUseId content isError => some (toolUseId, content, isError)
    | _ => none

/-- What a report says about one result, apart from how it was reduced. -/
structure ChangedResult where
  toolCallId : String
  toolName : Option String
  isError : Bool
  canonicalContentKind : ToolResultContentKind
  canonicalContentBytes : Nat
  projectedContentBytes : Nat

def changedResult (result : ElidedToolResult) : ChangedResult where
  toolCallId := result.toolCallId
  toolName := result.toolName
  isError := result.isError
  canonicalContentKind := result.canonicalContentKind
  canonicalContentBytes := result.canonicalContentBytes
  projectedContentBytes := result.projectedContentBytes

/-- The results whose content differs between a history and its projection, in
history order and with their sizes. -/
def changedResults [DecidableEq V] (history projected : List (Message V)) : List ChangedResult :=
  ((toolResults history).zip (resultContents projected)).filterMap
    fun ((toolUseId, canonical, isError), content) =>
      if content = canonical then none
      else some
        { toolCallId := toolUseId
          toolName := toolName history toolUseId
          isError
          canonicalContentKind := contentKind canonical
          canonicalContentBytes := canonical.len
          projectedContentBytes := content.len }

omit [SerdeJson V] in
theorem toolResults_eq :
    toolResults history = (toolResultLocations history).filterMap fun location =>
      (canonicalContent history location).map fun content =>
        (location.toolUseId, content, location.isError) := by
  rw [toolResults, toolResultLocations, filterMap_flatMap]
  conv_lhs => rw [← zipIdx_map_fst 0 history, flatMap_map]
  apply flatMap_congr
  rintro ⟨message, messageIndex⟩ present
  have found := mem_zipIdx_iff_getElem?.mp present
  conv_lhs => rw [← zipIdx_map_fst 0 message.content, filterMap_map]
  rw [filterMap_filterMap]
  apply filterMap_congr
  rintro ⟨block, blockIndex⟩ blockPresent
  have blockFound := mem_zipIdx_iff_getElem?.mp blockPresent
  cases block <;> simp_all [canonicalContent, projectedContent, resultContent]

/-- The entry a cell's action leads to. -/
def reportEntry (pair : ToolResultLocation × Cell V) : Option ElidedToolResult :=
  pair.2.action.map fun action =>
    { toolCallId := pair.1.toolUseId
      toolName := pair.1.toolName
      isError := pair.1.isError
      canonicalContentKind := contentKind pair.2.canonical
      action
      canonicalContentBytes := pair.2.canonical.len
      projectedContentBytes := pair.2.content.len }

section Report

variable {history : List (Message V)} {state : Projection V} {cells : List (Cell V)}

theorem Represents.elidedResult_eq (represents : Represents history state cells)
    {pair : ToolResultLocation × Cell V} (mem : pair ∈ (toolResultLocations history).zip cells) :
    elidedResult history state.messages pair.1 pair.2.action = some (reportEntry pair) := by
  have canonical : canonicalContent history pair.1 = some pair.2.canonical :=
    eq_of_mem_zip represents.map_canonical mem
  have content : projectedContent state.messages pair.1 = some pair.2.content :=
    eq_of_mem_zip represents.map_content mem
  unfold elidedResult reportEntry
  cases pair.2.action with
  | none => rfl
  | some action => simp [canonical, content]

omit [SerdeJson V] in
/-- A history's results and what is shown of them, by location and cell. -/
theorem Represents.toolResults_zip (represents : Represents history state cells) :
    (toolResults history).zip (resultContents state.messages) =
      ((toolResultLocations history).zip cells).map fun pair =>
        ((pair.1.toolUseId, pair.2.canonical, pair.1.isError), pair.2.content) := by
  have locations : ((toolResultLocations history).zip cells).map Prod.fst =
      toolResultLocations history := map_fst_zip represents.length_eq.le
  have allCells : ((toolResultLocations history).zip cells).map Prod.snd = cells :=
    map_snd_zip represents.length_eq.ge
  have results : toolResults history = ((toolResultLocations history).zip cells).map fun pair =>
      (pair.1.toolUseId, pair.2.canonical, pair.1.isError) := by
    rw [toolResults_eq]
    conv_lhs => rw [← locations]
    rw [filterMap_map, ← filterMap_eq_map]
    apply filterMap_congr
    intro pair mem
    have canonical : canonicalContent history pair.1 = some pair.2.canonical :=
      eq_of_mem_zip represents.map_canonical mem
    simp [canonical]
  have shown : resultContents state.messages =
      ((toolResultLocations history).zip cells).map fun pair => pair.2.content := by
    rw [represents.contents]
    conv_lhs => rw [← allCells]
    rw [map_map]
    rfl
  rw [results, shown, zip_map']

variable {maxBytes : Nat}

theorem Within.shape {first : Nat} (within : Within history maxBytes first state) :
    SameShape history state.messages := by
  obtain ⟨cells, represents, -⟩ := within
  exact represents.shape

theorem Represents.mapM_elidedResult (represents : Represents history state cells) :
    ((toolResultLocations history).zip state.actions).mapM
        (fun (location, action) => elidedResult history state.messages location action) =
      some (((toolResultLocations history).zip cells).map reportEntry) := by
  rw [represents.actions, zip_map_right, mapM_map]
  apply mapM_eq_some
  intro pair mem
  exact represents.elidedResult_eq mem

/-- The report lists the changed results. -/
theorem Within.report_eq [DecidableEq V] {first : Nat}
    {results : List (Option ElidedToolResult)} (within : Within history maxBytes first state)
    (listed : ((toolResultLocations history).zip state.actions).mapM
        (fun (location, action) => elidedResult history state.messages location action) =
      some results) :
    results.reduceOption.map changedResult = changedResults history state.messages := by
  obtain ⟨cells, represents, honest, -⟩ := within
  rw [represents.mapM_elidedResult, Option.some.injEq] at listed
  subst listed
  rw [changedResults, represents.toolResults_zip, filterMap_map, List.reduceOption,
    filterMap_map, map_filterMap]
  apply filterMap_congr
  rintro ⟨location, cell⟩ mem
  obtain ⟨located, present⟩ := of_mem_zip mem
  have acted := honest cell present
  obtain ⟨_, _, isLocated⟩ := mem_toolResultLocations_iff.mp located
  simp only [Function.comp_apply, id_eq, reportEntry, ← isLocated.name]
  cases action : cell.action with
  | none => rw [if_pos (acted.mp action), Option.map_none, Option.map_none]
  | some reduced =>
    have changed : cell.content ≠ cell.canonical := fun same => by
      rw [acted.mpr same] at action
      cases action
    rw [if_neg changed]
    rfl

end Report

/-! ## The projection -/

theorem changedResults_self [DecidableEq V] : changedResults history history = [] := by
  have contents : resultContents history = (toolResults history).map fun result => result.2.1 := by
    rw [resultContents, toolResults, map_flatMap]
    apply flatMap_congr
    intro message _
    rw [map_filterMap]
    apply filterMap_congr
    intro block _
    cases block <;> rfl
  rw [changedResults, contents, filterMap_eq_nil_iff]
  rintro ⟨result, content⟩ mem
  have aligned : ((toolResults history).map fun result => result.2.1) =
      ((toolResults history).map fun result => result.2.1).map id := (map_id _).symm
  have same : result.2.1 = content := eq_of_mem_zip aligned mem
  simp [same]

/-- The two ways a projection ends, neither of them a panic. -/
theorem budgetToolResultHistory_eq (budget : ProjectedToolResultBudget) :
    (toolResultContentBytes history ≤ budget.maxBytes ∧
        budgetToolResultHistory history budget = some ⟨history, none⟩) ∨
      (budget.maxBytes < toolResultContentBytes history ∧
        ∃ state results, Settled history budget.maxBytes 0
            (fun index => index < (toolResultLocations history).length) state ∧
          ((toolResultLocations history).zip state.actions).mapM
            (fun (location, action) => elidedResult history state.messages location action) =
              some results ∧
          budgetToolResultHistory history budget = some
            { messages := state.messages
              report := some
                { policy := .byteBudget budget.maxBytes budget.prioritizeRecentResults
                    budget.maxPreviewBytes
                  canonicalToolResultContentBytes := toolResultContentBytes history
                  projectedToolResultContentBytes := toolResultContentBytes state.messages
                  results := results.reduceOption } }) := by
  rw [budgetToolResultHistory, canonicalBytes_eq, Option.bind_eq_bind, Option.bind_some]
  split
  · rename_i fits
    exact .inl ⟨fits, rfl⟩
  · rename_i large
    obtain ⟨state, projected, settled⟩ := project_spec history budget
    have computed : toolResultContentBytes state.messages ≤ budget.maxBytes := by
      rw [toolResultContentBytes_eq]
      exact (Nat.min_le_left _ _).trans settled.within.resultBytes_le
    obtain ⟨cells, represents, -⟩ := settled.within
    have listed := represents.mapM_elidedResult
    refine .inr ⟨Nat.lt_of_not_le large, state, _, settled, listed, ?_⟩
    simp only [projected, Option.bind_eq_bind, Option.bind_some, if_pos computed, listed]
    rfl

/-- For every history and budget the projection does not panic.  It shows at most the budget,
changes nothing but the content of tool results, is the identity when the history fits, and
otherwise reports the changed results with their true sizes, and the two totals. -/
theorem budgetToolResultHistory_spec [DecidableEq V] (history : List (Message V))
    (budget : ProjectedToolResultBudget) :
    ∃ result, budgetToolResultHistory history budget = some result ∧
      toolResultContentBytes result.messages ≤ budget.maxBytes ∧
      (resultBytes history ≤ Usize.max ∨ budget.maxBytes < Usize.max →
        resultBytes result.messages ≤ budget.maxBytes) ∧
      SameShape history result.messages ∧
      (toolResultContentBytes history ≤ budget.maxBytes → result = ⟨history, none⟩) ∧
      (result.report.elim [] fun report => report.results.map changedResult) =
        changedResults history result.messages ∧
      ∀ report ∈ result.report,
        report.canonicalToolResultContentBytes = toolResultContentBytes history ∧
        report.projectedToolResultContentBytes = toolResultContentBytes result.messages := by
  rcases budgetToolResultHistory_eq history budget with
    ⟨fits, computed⟩ | ⟨large, state, results, settled, listed, computed⟩
  · refine ⟨⟨history, none⟩, computed, fits, ?_, .refl history, fun _ => rfl,
      (changedResults_self history).symm, by simp⟩
    rw [toolResultContentBytes_eq] at fits
    intro representable
    change resultBytes history ≤ budget.maxBytes
    omega
  · have total := settled.within.resultBytes_le
    refine ⟨_, computed, ?_, fun _ => total, settled.within.shape,
      fun fits => absurd fits (Nat.not_le_of_lt large), settled.within.report_eq listed, ?_⟩
    · change toolResultContentBytes state.messages ≤ budget.maxBytes
      rw [toolResultContentBytes_eq]
      omega
    · rintro report ⟨⟩
      exact ⟨rfl, rfl⟩

/-- Once every result was tried, restoring one that shows less breaks the budget. -/
theorem Settled.restored_over {history restored : List (Message V)} {maxBytes : Nat}
    {state : Projection V} {canonical shown : ToolResultContent V}
    (settled : Settled history maxBytes 0
      (fun index => index < (toolResultLocations history).length) state)
    (mem : location ∈ toolResultLocations history)
    (original : canonicalContent history location = some canonical)
    (read : projectedContent state.messages location = some shown) (changed : shown ≠ canonical)
    (written : setProjectedContent state.messages location canonical = some restored) :
    maxBytes < resultBytes restored := by
  obtain ⟨cells, represents, reduced, total, refused⟩ := settled
  obtain ⟨index, bound, isLocation⟩ := mem_iff_getElem.mp mem
  obtain ⟨located, cell, found, isCell, isCanonical, isShown, -⟩ := represents.read bound
  rw [getElem?_eq_getElem bound, Option.some.injEq, isLocation] at found
  subst found
  cases original.symm.trans isCanonical
  cases read.symm.trans isShown
  have short := (refused index cell bound isCell).resolve_left
    (mt (reduced cell (mem_of_getElem? isCell)).honest.mp changed)
  obtain ⟨rewritten, wrote, represents'⟩ := represents.write
    (List.getElem?_eq_some_iff.mpr ⟨bound, isLocation⟩) isCell isShown cell.canonical none 0
  cases written.symm.trans wrote
  have resized := sum_map_set Cell.size isCell ⟨cell.canonical, cell.canonical, none⟩
  rw [resultBytes, represents'.contents, map_map]
  simp only [drop_zero] at total
  change _ < ((cells.set index _).map Cell.size).sum
  simp only [Cell.size] at total resized ⊢
  omega

/-- The projection is maximal: whichever result shows less than its own content,
restoring that content would bring the total above the budget. -/
theorem budgetToolResultHistory_maximal (history : List (Message V))
    (budget : ProjectedToolResultBudget) :
    ∃ result, budgetToolResultHistory history budget = some result ∧
      ∀ location ∈ toolResultLocations history, ∀ canonical shown,
        canonicalContent history location = some canonical →
        projectedContent result.messages location = some shown → shown ≠ canonical →
        ∃ restored, setProjectedContent result.messages location canonical = some restored ∧
          budget.maxBytes < toolResultContentBytes restored := by
  rcases budgetToolResultHistory_eq history budget with
    ⟨-, computed⟩ | ⟨large, state, results, settled, -, computed⟩
  · refine ⟨_, computed, ?_⟩
    intro location _ canonical shown original read changed
    exact absurd (Option.some.inj (read.symm.trans original)) changed
  · refine ⟨_, computed, ?_⟩
    intro location mem canonical shown original read changed
    obtain ⟨restored, written, -⟩ := setProjectedContent_spec read canonical
    have above := settled.restored_over mem original read changed written
    refine ⟨restored, written, ?_⟩
    rw [toolResultContentBytes_eq] at large ⊢
    omega

/-- A history with one result of forty bytes. -/
def longResult : List (Message Unit) :=
  [⟨.user, [.toolResult "call" (.text "0123456789012345678901234567890123456789") false]⟩]

/-- With thirty bytes allowed, the result is shown as a marker. -/
theorem longResult_maximal :
    ∃ result restored, budgetToolResultHistory longResult ⟨30, 0, 0⟩ = some result ∧
      projectedContent result.messages ⟨0, 0, "call", none, false⟩ =
        some (.text "[Previous: used tool]") ∧
      setProjectedContent result.messages ⟨0, 0, "call", none, false⟩
        (.text "0123456789012345678901234567890123456789") = some restored ∧
      30 < toolResultContentBytes restored := by
  obtain ⟨result, computed, maximal⟩ := budgetToolResultHistory_maximal longResult ⟨30, 0, 0⟩
  have read : (budgetToolResultHistory longResult ⟨30, 0, 0⟩).bind
      (fun result => projectedContent result.messages ⟨0, 0, "call", none, false⟩) =
        some (.text "[Previous: used tool]") := by
    decide +kernel
  rw [computed, Option.bind_some] at read
  obtain ⟨restored, written, above⟩ := maximal ⟨0, 0, "call", none, false⟩
    (mem_cons_self) _ _ rfl read (by decide)
  exact ⟨result, restored, computed, read, written, above⟩

end Sizes

end Mentra.Memory

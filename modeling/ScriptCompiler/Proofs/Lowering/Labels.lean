import Mathlib.Data.List.Nodup
import ScriptCompiler.Proofs.Lowering.Moves
import ScriptCompiler.Proofs.Text.Digits

/-!
# Labels of blocks

A new block gets the label asked for, with the number of earlier requests behind it.  A label and
the number behind it can be told from what is written, but what is written with a number may be
asked for as it stands too.  So labels are unique exactly if no request spells a numbered label that
another request has led to (`Function.newBlocks_unique_iff`).
-/

namespace ScriptCompiler

namespace Lowering

variable {requests : List Bytes}

theorem numberedLabel_succ (label : Bytes) (earlier : Nat) :
    numberedLabel label (earlier + 1) = label ++ 0x2E :: Bytes.ofNat (earlier + 1) := by
  have separator : (("." : String) : Bytes) = [0x2E] := by decide
  rw [numberedLabel, separator, List.append_assoc, List.singleton_append]

/-- A label and the number behind it can be told from what is written. -/
theorem numberedLabel_succ_inj {first second : Bytes} {left right : Nat}
    (same : numberedLabel first (left + 1) = numberedLabel second (right + 1)) :
    first = second ∧ left = right := by
  rw [numberedLabel_succ, numberedLabel_succ] at same
  obtain ⟨labels, numbers⟩ := Bytes.append_ofNat_inj (by decide) same
  exact ⟨labels, Nat.succ.inj numbers⟩

/-- Requests with the numbers of earlier requests for the same label, the last request first. -/
def tally : List Bytes → List (Bytes × Nat)
  | [] => []
  | label :: earlier => tally earlier ++ [(label, earlier.count label)]

theorem requestedLabels_eq_map (requests : List Bytes) :
    requestedLabels requests = (tally requests).map fun entry => numberedLabel entry.1 entry.2 := by
  induction requests with
  | nil => rfl
  | cons label earlier ih => rw [requestedLabels, tally, ih, List.map_append]; rfl

theorem length_requestedLabels (requests : List Bytes) :
    (requestedLabels requests).length = requests.length := by
  induction requests with
  | nil => rfl
  | cons label earlier ih => rw [requestedLabels, List.length_append, ih]; rfl

theorem mem_tally {label : Bytes} {number : Nat} :
    (label, number) ∈ tally requests ↔ number < requests.count label := by
  induction requests with
  | nil => simp [tally]
  | cons request earlier ih =>
      rw [tally, List.mem_append, ih, List.mem_singleton, Prod.mk.injEq, List.count_cons]
      by_cases same : request = label
      · subst same
        simp only [true_and, beq_self_eq_true, if_true]
        omega
      · simp [same, Ne.symm same]

theorem nodup_tally (requests : List Bytes) : (tally requests).Nodup := by
  induction requests with
  | nil => exact List.nodup_nil
  | cons label earlier ih =>
      rw [tally, ← List.concat_eq_append]
      exact ih.concat fun again => Nat.lt_irrefl _ (mem_tally.mp again)

theorem mem_requestedLabels {label : Bytes} (member : label ∈ requestedLabels requests) :
    ∃ request ∈ requests, ∃ earlier < requests.count request,
      label = numberedLabel request earlier := by
  rw [requestedLabels_eq_map, List.mem_map] at member
  obtain ⟨⟨request, earlier⟩, within, rfl⟩ := member
  have less := mem_tally.mp within
  exact ⟨request, List.count_pos_iff.mp (Nat.zero_lt_of_lt less), earlier, less, rfl⟩

/-- What requests have led to is unique exactly if none of them spells a label with a number that
others have led to. -/
theorem requestedLabels_nodup_iff : (requestedLabels requests).Nodup ↔
    ∀ label earlier, 0 < earlier → earlier < requests.count label →
      numberedLabel label earlier ∉ requests := by
  rw [requestedLabels_eq_map, List.nodup_map_iff_inj_on (nodup_tally requests)]
  constructor
  · intro unique label earlier positive less asked
    -- The spelt request leads to its own label first, without a number.
    have numbered : (label, earlier) ∈ tally requests := mem_tally.mpr less
    have plain : (numberedLabel label earlier, 0) ∈ tally requests :=
      mem_tally.mpr (List.count_pos_iff.mpr asked)
    have same := unique _ numbered _ plain rfl
    exact positive.ne' (congrArg Prod.snd same)
  · rintro free ⟨first, left⟩ atFirst ⟨second, right⟩ atSecond same
    have firstLess := mem_tally.mp atFirst
    have secondLess := mem_tally.mp atSecond
    have firstAsked := List.count_pos_iff.mp (Nat.zero_lt_of_lt firstLess)
    have secondAsked := List.count_pos_iff.mp (Nat.zero_lt_of_lt secondLess)
    cases left with
    | zero =>
        cases right with
        | zero => exact congrArg (·, 0) same
        | succ right =>
            exact absurd (same ▸ firstAsked) (free second (right + 1) (Nat.succ_pos _) secondLess)
    | succ left =>
        cases right with
        | zero =>
            exact absurd (same ▸ secondAsked) (free first (left + 1) (Nat.succ_pos _) firstLess)
        | succ right =>
            obtain ⟨rfl, rfl⟩ := numberedLabel_succ_inj same
            rfl

end Lowering

namespace IR.Function

open Lowering

variable {function : Function}

/-- The function with further blocks for some labels, one after the other. -/
def newBlocks (function : Function) (labels : List Bytes) : Function :=
  labels.foldl (fun changed label => (changed.newBlock label).2) function

/-- Blocks have the labels that were asked for, and each one knows its place. -/
structure Labelled (function : Function) : Prop where
  /-- The labels are those that the requests have led to. -/
  labels : function.blocks.map (fun block => block.name.label) = requestedLabels function.requests
  /-- The index of each block is its place. -/
  indices : function.blocks.map Block.index = List.range function.blocks.length

namespace Labelled

theorem newBlock (labelled : function.Labelled) (label : Bytes) :
    (function.newBlock label).2.Labelled where
  labels := by
    rw [Function.newBlock, List.map_append, labelled.labels]
    rfl
  indices := by
    rw [Function.newBlock, List.map_append, labelled.indices, List.length_append,
      List.length_singleton,
      List.range_succ]
    rfl

theorem newBlocks (labelled : function.Labelled) (labels : List Bytes) :
    (function.newBlocks labels).Labelled := by
  induction labels generalizing function with
  | nil => exact labelled
  | cons label labels ih => exact ih (labelled.newBlock label)

theorem ofSignature (name : Bytes) (params : List (Bytes × BasicType)) (result : BasicType) :
    (Function.ofSignature name params result).Labelled := ⟨rfl, rfl⟩

end Labelled

theorem requests_newBlocks (function : Function) (labels : List Bytes) :
    (function.newBlocks labels).requests = labels.reverse ++ function.requests := by
  induction labels generalizing function with
  | nil => rfl
  | cons label labels ih =>
      rw [newBlocks, List.foldl_cons, ← newBlocks, ih, List.reverse_cons, List.append_assoc]
      rfl

/-- **When labels are unique.**  However many blocks are added to a new function, each block has the
index of its place; and their labels are unique exactly if no label asked for, that of the entry
included, spells a label with a number that another request has led to. -/
theorem newBlocks_unique_iff (name : Bytes) (params : List (Bytes × BasicType)) (result : BasicType)
    (labels : List Bytes) :
    ((ofSignature name params result).newBlocks labels).blocks.map Block.index =
        List.range (labels.length + 1) ∧
      ((((ofSignature name params result).newBlocks labels).blocks.map
          fun block => block.name.label).Nodup ↔
        ∀ label earlier, 0 < earlier → earlier < (Bytes.ofString "entry" :: labels).count label →
          numberedLabel label earlier ∉ Bytes.ofString "entry" :: labels) := by
  have labelled := (Labelled.ofSignature name params result).newBlocks labels
  have requests := requests_newBlocks (ofSignature name params result) labels
  generalize (ofSignature name params result).newBlocks labels = function at labelled requests
  have asked : function.requests.Perm (Bytes.ofString "entry" :: labels) := by
    rw [requests]
    exact ((List.reverse_perm labels).append_right _).trans (List.perm_append_singleton _ _)
  have size : function.blocks.length = labels.length + 1 := by
    rw [← List.length_map (f := fun block => block.name.label), labelled.labels,
      length_requestedLabels, asked.length_eq, List.length_cons]
  constructor
  · rw [labelled.indices, size]
  · rw [labelled.labels, requestedLabels_nodup_iff]
    simp only [asked.count_eq, asked.mem_iff]

/-- The second block asked for as `then` and the first one asked for as `then.1` get one label. -/
example : ((ofSignature "f" [] .void).newBlocks ["then", "then", "then.1"]).blocks.map
    (fun block => block.name.label) = ["entry", "then", "then.1", "then.1"] := by
  decide

end IR.Function

end ScriptCompiler

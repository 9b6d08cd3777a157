import GuestThreads.Fault
import GuestThreads.Proofs.Text.Literal
import Mathlib.Data.List.Induction
import Mathlib.Data.List.Nodup

/-!
# How missing imports are reported

Missing imports are entered one after the other into the groups of their modules. When all are
entered, there is a group for each module, in the order in which the modules first appeared, and it
holds the imports of its module as they came: `groups_eq`. The report has a block of lines for each
group. So it shows every import on a line of its own, and it does not depend on how the imports of
different modules were mixed: `report_is_a_stable_grouping`.
-/

namespace GuestThreads.MissingImport

variable {imports : List MissingImport} {entered : List (String × List MissingImport)}

/-! ## Groups -/

/-- The groups that are there when these imports have been entered. -/
structure Grouped (imports : List MissingImport) (entered : List (String × List MissingImport)) :
    Prop where
  modules : entered.map Prod.fst = (imports.map (·.module)).eraseDups
  nodup : (entered.map Prod.fst).Nodup
  members : ∀ g ∈ entered, g.2 = imports.filter (·.module = g.1)
  /-- Every import is in one group, as often as it was entered. -/
  all : (entered.flatMap Prod.snd).Perm imports

theorem map_fst_enter (entered : List (String × List MissingImport)) (i : MissingImport) :
    (enter entered i).map Prod.fst =
      if i.module ∈ entered.map Prod.fst then entered.map Prod.fst
      else entered.map Prod.fst ++ [i.module] := by
  fun_induction enter entered i <;> grind

theorem mem_enter {i : MissingImport} {g : String × List MissingImport}
    (hnodup : (entered.map Prod.fst).Nodup) (h : g ∈ enter entered i) :
    g.1 ≠ i.module ∧ g ∈ entered ∨
      g.1 = i.module ∧ ((∃ members, (i.module, members) ∈ entered ∧ g.2 = members ++ [i]) ∨
        i.module ∉ entered.map Prod.fst ∧ g.2 = [i]) := by
  fun_induction enter entered i <;> grind

theorem enter_perm (entered : List (String × List MissingImport)) (i : MissingImport) :
    ((enter entered i).flatMap Prod.snd).Perm (entered.flatMap Prod.snd ++ [i]) := by
  fun_induction enter entered i with
  | case1 => simp
  | case2 members rest i =>
    have hmoved := (List.perm_append_singleton i (rest.flatMap Prod.snd)).symm
    simpa using hmoved.append_left members
  | case3 m members rest i h ih => simpa using ih.append_left members

theorem Grouped.enter (h : Grouped imports entered) (i : MissingImport) :
    Grouped (imports ++ [i]) (enter entered i) := by
  -- A module has a group just if an import of it was entered before.
  have hmem : i.module ∈ entered.map Prod.fst ↔ i.module ∈ imports.map (·.module) := by
    rw [h.modules, List.mem_eraseDups]
  have hnodup := h.nodup
  refine ⟨?_, ?_, ?_, (enter_perm entered i).trans (h.all.append_right [i])⟩
  · rw [map_fst_enter, List.map_append, List.eraseDups_append, ← h.modules]
    by_cases hnew : i.module ∈ entered.map Prod.fst
    · have hold := List.mem_map.1 (hmem.1 hnew)
      simp [if_pos hnew, List.removeAll, hold]
    · have hold := mt (fun h => hmem.2 (List.mem_map.2 h)) hnew
      simp [if_neg hnew, List.removeAll, hold, List.eraseDups_cons]
  · rw [map_fst_enter]
    grind
  · intro g hg
    rw [List.filter_append]
    obtain ⟨hne, hg⟩ | ⟨heq, ⟨members, hmembers, hg⟩ | ⟨hnew, hg⟩⟩ := mem_enter hnodup hg
    · simpa [hne.symm] using h.members g hg
    · simpa [hg, heq] using h.members _ hmembers
    · have hnone : imports.filter (·.module = i.module) = [] := by
        rw [List.filter_eq_nil_iff]
        grind
      simp [hg, heq, hnone]

theorem grouped_groups (imports : List MissingImport) : Grouped imports (groups imports) := by
  induction imports using List.reverseRecOn with
  | nil => exact ⟨rfl, List.nodup_nil, by simp [groups], .refl _⟩
  | append_singleton imports i ih =>
    rw [groups, List.foldl_append]
    exact ih.enter i

/-- The groups are the modules in the order of their first appearance, each with its imports. -/
theorem groups_eq (imports : List MissingImport) : groups imports =
    (imports.map (·.module)).eraseDups.map fun m => (m, imports.filter (·.module = m)) := by
  have hgrouped := grouped_groups imports
  rw [← hgrouped.modules, List.map_map]
  exact (List.map_id'' (fun g => rfl) _).symm.trans
    (List.map_congr_left fun g hg => Prod.ext rfl (hgrouped.members g hg))

theorem mem_groups_iff {g : String × List MissingImport} : g ∈ groups imports ↔
    (∃ i ∈ imports, i.module = g.1) ∧ g.2 = imports.filter (·.module = g.1) := by
  rw [groups_eq]
  grind [List.mem_eraseDups]

theorem ne_nil_of_mem_groups {g : String × List MissingImport} (h : g ∈ groups imports) :
    g.2 ≠ [] := by
  obtain ⟨⟨i, hi, hmodule⟩, hmembers⟩ := mem_groups_iff.1 h
  rw [hmembers]
  exact List.ne_nil_of_mem (List.mem_filter.2 ⟨hi, by simpa using hmodule⟩)

theorem groups_ne_nil (h : imports ≠ []) : groups imports ≠ [] := by
  intro hnone
  have hperm := (grouped_groups imports).all
  rw [hnone] at hperm
  exact h hperm.nil_eq.symm

/-! ## Lines -/

theorem intercalate_newline {lines : List String} (h : lines ≠ []) :
    String.intercalate "\n" lines ++ "\n" = String.join (lines.map (· ++ "\n")) := by
  induction lines with
  | nil => exact absurd rfl h
  | cons line rest ih =>
    by_cases hrest : rest = []
    · simp [hrest]
    · rw [String.intercalate_cons_of_ne_nil hrest, String.append_assoc, ih hrest]
      simp

/-- The report is a headline and a block for each group, less the end of the last line. -/
theorem message_append_newline (h : imports ≠ []) : message imports ++ "\n" =
    "missing " ++ Text.decimal imports.length ++ " import(s):\n" ++
      String.join ((groups imports).map fun g =>
        "\n  " ++ g.1 ++ ":\n" ++ String.join (g.2.map (·.line ++ "\n"))) := by
  have hblock : ∀ g ∈ groups imports,
      "\n  " ++ g.1 ++ ":\n" ++ String.intercalate "\n" (g.2.map line) ++ "\n" =
        "\n  " ++ g.1 ++ ":\n" ++ String.join (g.2.map (·.line ++ "\n")) := by
    intro g hg
    have hlines : g.2.map line ≠ [] := by simpa using ne_nil_of_mem_groups hg
    rw [String.append_assoc, intercalate_newline hlines, List.map_map]
    rfl
  have hblocks := groups_ne_nil h
  rw [message.eq_2 imports h, String.append_assoc, intercalate_newline (by simpa using hblocks),
    List.map_map]
  exact congrArg _ (congrArg String.join (List.map_congr_left hblock))

/-- The lines of the block of a group. -/
def blockLines (g : String × List MissingImport) : List String :=
  "" :: ("  " ++ g.1 ++ ":") :: g.2.map line

/-- The lines of a report. -/
def reportLines (imports : List MissingImport) : List String :=
  ("missing " ++ Text.decimal imports.length ++ " import(s):") ::
    (groups imports).flatMap blockLines

theorem join_blockLines (g : String × List MissingImport) :
    String.join ((blockLines g).map (· ++ "\n")) =
      "\n  " ++ g.1 ++ ":\n" ++ String.join (g.2.map (·.line ++ "\n")) := by
  have hindent : "\n  " = "\n" ++ "  " := by decide
  have hcolon : ":\n" = ":" ++ "\n" := by decide
  rw [hindent, hcolon]
  simp only [blockLines, List.map_cons, List.map_map, String.join_cons, String.empty_append,
    String.append_assoc]
  rfl

theorem message_eq_intercalate (h : imports ≠ []) :
    message imports = String.intercalate "\n" (reportLines imports) := by
  have hhead : " import(s):\n" = " import(s):" ++ "\n" := by decide
  have hblocks (gs : List (String × List MissingImport)) :
      String.join ((gs.flatMap blockLines).map (· ++ "\n")) =
        String.join (gs.map fun g => String.join ((blockLines g).map (· ++ "\n"))) := by
    induction gs with
    | nil => rfl
    | cons g gs ih => simp [ih]
  rw [← String.append_left_inj "\n", message_append_newline h,
    intercalate_newline (by simp [reportLines]), reportLines, List.map_cons, String.join_cons,
    hblocks]
  simp only [join_blockLines, hhead, String.append_assoc]

/-! ## Entries -/

/-- Nothing that is shown of an import breaks its line. -/
def OneLine (i : MissingImport) : Prop :=
  ∀ text ∈ [i.module, i.name, i.kind], '\n' ∉ text.toList

/-- The entries among the lines below the headline. An empty line and the line after it are the
heading of a block. -/
def entryLines : List (List Char) → List (List Char)
  | [] :: _ :: rest => entryLines rest
  | line :: rest => line :: entryLines rest
  | [] => []

theorem entryLines_append {entries : List (List Char)} (h : [] ∉ entries)
    (rest : List (List Char)) : entryLines (entries ++ rest) = entries ++ entryLines rest := by
  induction entries with
  | nil => rfl
  | cons entry entries ih =>
    obtain ⟨hentry, hentries⟩ := not_or.1 (mt List.mem_cons.2 h)
    rw [List.cons_append, entryLines.eq_2 _ _ (by grind), ih hentries, List.cons_append]

theorem entryLines_flatMap (gs : List (String × List MissingImport)) :
    entryLines ((gs.flatMap blockLines).map String.toList) =
      (gs.flatMap Prod.snd).map (·.line.toList) := by
  induction gs with
  | nil => rfl
  | cons g gs ih =>
    have hentries : [] ∉ g.2.map (·.line.toList) := by simp [line]
    have happend := entryLines_append hentries ((gs.flatMap blockLines).map String.toList)
    simpa [blockLines, entryLines, ih, Function.comp_def] using happend

theorem newline_not_mem_decimal (n : Nat) : '\n' ∉ (Text.decimal n).toList := by
  intro hmem
  have hplain := (Text.literal_decimal n).plain '\n' (by simpa [Text.decimal] using hmem)
  exact absurd hplain.1 (by decide)

theorem OneLine.line {i : MissingImport} (h : i.OneLine) : '\n' ∉ i.line.toList := by
  have hname := h i.name (by simp)
  have hkind := h i.kind (by simp)
  rw [MissingImport.line]
  split <;> simp [hname, hkind]

theorem newline_not_mem_reportLines (h : ∀ i ∈ imports, i.OneLine) :
    ∀ text ∈ reportLines imports, '\n' ∉ text.toList := by
  have hblock : ∀ g ∈ groups imports, ∀ text ∈ blockLines g, '\n' ∉ text.toList := by
    intro g hg text htext
    obtain ⟨⟨i, hi, hmodule⟩, hmembers⟩ := mem_groups_iff.1 hg
    rw [blockLines, hmembers] at htext
    simp only [List.mem_cons, List.mem_map, List.mem_filter] at htext
    obtain rfl | rfl | ⟨j, ⟨hj, -⟩, rfl⟩ := htext
    · simp
    · simpa [hmodule] using h i hi i.module (by simp)
    · exact (h j hj).line
  have hdecimal := newline_not_mem_decimal imports.length
  simp only [reportLines, List.mem_cons, List.mem_flatMap]
  rintro text (rfl | ⟨g, hg, htext⟩)
  · simpa using hdecimal
  · exact hblock g hg text htext

/-- Below the headline, the entries of the text are those of the groups. -/
theorem entryLines_message (hne : imports ≠ []) (h : ∀ i ∈ imports, i.OneLine) :
    entryLines ((message imports).toList.splitOn '\n').tail =
      ((groups imports).flatMap Prod.snd).map (·.line.toList) := by
  have hlines : (message imports).toList.splitOn '\n' =
      (reportLines imports).map String.toList := by
    rw [message_eq_intercalate hne, String.toList_intercalate]
    refine List.splitOn_intercalate '\n' ?_ (by simp [reportLines])
    simpa using newline_not_mem_reportLines h
  rw [hlines, reportLines, List.map_cons, List.tail_cons, entryLines_flatMap]

/-- The report of missing imports is its headline, with their number, and a block for each module,
in the order of first appearance, that lists the imports of the module as they were given. The end
of the last line is left off. So there is one entry for each import, and imports of different
modules may change places as long as the modules keep their order of first appearance. -/
theorem report_is_a_stable_grouping (imports : List MissingImport) (h : imports ≠ []) :
    message imports ++ "\n" = "missing " ++ Text.decimal imports.length ++ " import(s):\n" ++
      String.join ((imports.map (·.module)).eraseDups.map fun m =>
        "\n  " ++ m ++ ":\n" ++
          String.join ((imports.filter (·.module = m)).map (·.line ++ "\n"))) ∧
    ((∀ i ∈ imports, i.OneLine) →
      (entryLines ((message imports).toList.splitOn '\n').tail).length = imports.length) ∧
    ∀ imports' : List MissingImport,
      (imports'.map (·.module)).eraseDups = (imports.map (·.module)).eraseDups →
      (∀ m, imports'.filter (·.module = m) = imports.filter (·.module = m)) →
        message imports' = message imports := by
  refine ⟨?_, fun hlines => ?_, fun imports' hmodules hmembers => ?_⟩
  · rw [message_append_newline h, groups_eq, List.map_map]
    rfl
  · rw [entryLines_message h hlines, List.length_map, (grouped_groups imports).all.length_eq]
  · have hgroups : groups imports' = groups imports := by
      rw [groups_eq, groups_eq, hmodules]
      simp only [hmembers]
    have hlength : imports'.length = imports.length := by
      rw [← (grouped_groups imports').all.length_eq, hgroups,
        (grouped_groups imports).all.length_eq]
    have hne : imports' ≠ [] := by
      rwa [← List.length_pos_iff, hlength, List.length_pos_iff]
    rw [message_eq_intercalate h, message_eq_intercalate hne, reportLines, reportLines, hgroups,
      hlength]

/-- Two modules, one of them without a name, whose imports were mixed. -/
theorem mixed_report_is_a_stable_grouping :
    message [⟨"env", "a", ""⟩, ⟨"", "b", ""⟩, ⟨"env", "c", "func"⟩] ++ "\n" =
      "missing 3 import(s):\n\n  env:\n    - a\n    - c (func)\n\n  :\n    - b\n" ∧
    (entryLines ((message [⟨"env", "a", ""⟩, ⟨"", "b", ""⟩,
      ⟨"env", "c", "func"⟩]).toList.splitOn '\n').tail).length = 3 ∧
    message [⟨"env", "a", ""⟩, ⟨"env", "c", "func"⟩, ⟨"", "b", ""⟩] =
      message [⟨"env", "a", ""⟩, ⟨"", "b", ""⟩, ⟨"env", "c", "func"⟩] := by
  obtain ⟨htext, hcount, hmixed⟩ := report_is_a_stable_grouping
    [⟨"env", "a", ""⟩, ⟨"", "b", ""⟩, ⟨"env", "c", "func"⟩] (by simp)
  refine ⟨htext.trans (by decide +kernel), hcount ?_, hmixed _ (by decide +kernel) fun m => ?_⟩
  · unfold OneLine
    decide +kernel
  · grind

end GuestThreads.MissingImport

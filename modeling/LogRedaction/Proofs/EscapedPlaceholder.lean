/-
LogRedaction.Proofs.EscapedPlaceholder — a rule for the literal text of a placeholder.

An escaped placeholder expands to an expression for its own text. It is a template without names,
so it expands to the same for every user (`expand_escaped_marked`). The expression begins with a
backslash and ends with a brace, so there are no blanks around it to take away
(`strip_escape_marked`), and it is read as the word that was escaped. So the rule replaces the text
as it stands, whatever characters the name is made of: `redactLine_escaped`.
-/
import LogRedaction.Proofs.Regex.Escaped
import LogRedaction.Proofs.Template.Segment
import LogRedaction.Proofs.WordRule

namespace LogRedaction

open Text

/-- The name with the marks of a placeholder around it. -/
def Template.marked (name : Text) : Text := "$\x7b" ++ name ++ "\x7d"

/-- The rule that finds and replaces the text of a placeholder. -/
def Rule.escaped (key name : Text) : Rule :=
  ⟨key, "$" ++ Template.marked name, "$" ++ Template.marked name⟩

section Marked

variable {name : Text}

theorem Template.toList_marked (name : Text) :
    (marked name).toList = .scalar '$' :: .scalar '\x7b' :: (name.toList ++ [.scalar '\x7d']) := by
  simp [marked]

theorem Template.expand_escaped_marked (hname : .scalar '\x7d' ∉ name.toList) (mapping : Mapping)
    (rule : Option Text) : expand mapping ("$" ++ marked name) rule =
      .ok (Text.ofList (Regex.escape (marked name).toList)) := by
  have hwritten : "$" ++ marked name = ofSegments [.escaped name] := by
    rw [← Text.toList_inj]
    simp [ofSegments, Segment.written, toList_marked]
  have hwritable : ∀ segment ∈ [Segment.escaped name], segment.Writable :=
    List.forall_mem_singleton.mpr hname
  rw [hwritten, expand_of_standsFor hwritable (.cons (.escaped name) .nil), toList_marked]
  simp [Text.join]

theorem Text.strip_escape_marked (name : Text) :
    strip (Text.ofList (Regex.escape (Template.marked name).toList)) =
      Text.ofList (Regex.escape (Template.marked name).toList) := by
  have hends : Regex.escape (Template.marked name).toList =
      .scalar '\\' :: ([.scalar '$', .scalar '\\', .scalar '\x7b'] ++
        Regex.escape name.toList ++ [.scalar '\\'] ++ [.scalar '\x7d']) := by
    simp [Template.toList_marked, Regex.escape, Regex.isSpecial]
  rw [strip, hends, trim_eq_self (by decide) (by decide)]

variable [Host]

theorem Rule.exists_compile_escaped (hname : .scalar '\x7d' ∉ name.toList) (key : Text)
    (mapping : Mapping) : ∃ detect, (Rule.escaped key name).compile mapping =
      .ok ⟨key, detect, "$" ++ Template.marked name⟩ ∧ CompiledRule.ReplacesWord mapping
        ⟨key, detect, "$" ++ Template.marked name⟩ (Template.marked name).toList
          (Template.marked name).toList := by
  have hexpand := Template.expand_escaped_marked hname mapping (some key)
  have hread := Regex.read_escape (Template.marked name).toList
  have hstrip := strip_escape_marked name
  have hne : strip (Text.ofList (Regex.escape (Template.marked name).toList)) ≠ "" := by
    rw [hstrip, Template.toList_marked]
    simp [Regex.escape, Regex.isSpecial]
  exact @Rule.compile_of_isWord _ mapping (Rule.escaped key name) _ _ _ _ hexpand hexpand
    (hstrip.symm ▸ hread) hread hne ((strip_ne_empty_iff _).mp hne)
    (by simp [Template.toList_marked]) (List.infix_refl _)

/-- The rule compiles to one that replaces the text, and to the same one for everyone. -/
theorem Rule.compile_escaped (hname : .scalar '\x7d' ∉ name.toList) (key : Text) :
    ∃ compiled, ∀ mapping, (Rule.escaped key name).compile mapping = .ok compiled ∧
      compiled.ReplacesWord mapping (Template.marked name).toList
        (Template.marked name).toList := by
  have hsame : ∀ mapping, (Rule.escaped key name).compile mapping =
      (Rule.escaped key name).compile [] := by
    intro mapping
    simp only [compile, expand, Rule.escaped, Template.expand_escaped_marked hname]
  obtain ⟨detect, hfirst, -⟩ := Rule.exists_compile_escaped hname key []
  refine ⟨⟨key, detect, "$" ++ Template.marked name⟩, fun mapping => ?_⟩
  obtain ⟨detect', hcompile, hreplaces⟩ := Rule.exists_compile_escaped hname key mapping
  have hboth := hcompile.symm.trans ((hsame mapping).trans hfirst)
  obtain ⟨-, rfl, -⟩ := CompiledRule.mk.inj (Except.ok.inj hboth)
  exact ⟨hcompile, hreplaces⟩

/-- The rule for the text of a placeholder works for every name that has no closing brace. It finds
the lines in which the text stands, replaces the occurrences of the text, from the left, and changes
nothing between them. -/
theorem redactLine_escaped {name : Text} (hname : .scalar '\x7d' ∉ name.toList) (key : Text) :
    ∃ compiled, (∀ mapping, (Rule.escaped key name).compile mapping = .ok compiled) ∧
      (∀ line, compiled.detect.occursIn line = true ↔ (Template.marked name).toList <:+: line) ∧
      ∀ (mapping : Mapping) (n : Int) (pseudonym source line : Text), ∃ outcome pieces,
        redactLine [compiled] mapping n pseudonym source line = .ok outcome ∧
        (outcome.matched = true ↔ (Template.marked name).toList <:+: line.toList) ∧
        Occurrences (Template.marked name).toList line.toList pieces ∧
        (Template.marked name).toList.intercalate pieces = line.toList ∧
        outcome.text.toList = pseudonym.toList.intercalate pieces ∧
        ∀ piece ∈ pieces, ¬ (Template.marked name).toList <:+: piece := by
  obtain ⟨compiled, hcompiled⟩ := Rule.compile_escaped hname key
  have hdetect := (hcompiled []).2.detect
  have hne := (hcompiled []).2.part_ne_nil
  refine ⟨compiled, fun mapping => (hcompiled mapping).1, hdetect.occursIn_iff hne, ?_⟩
  intro mapping n pseudonym source line
  obtain ⟨outcome, pieces, hline, hpieces, htext, hmatched⟩ :=
    (hcompiled mapping).2.exists_outcome n pseudonym source line
  exact ⟨outcome, pieces, hline, hmatched, hpieces, intercalate_of_occurrences hpieces, htext,
    not_infix_of_occurrences hpieces hne⟩

end Marked

section Sample

attribute [local instance] sampleHost

/-- A name with characters that expressions use, a blank, a line feed and an opening brace. -/
theorem redactLine_escaped_metacharacters : ∃ compiled outcome pieces,
    (Rule.escaped "literal" "a.b* #\n$\x7b(").compile jdoe.mapping = .ok compiled ∧
    redactLine [compiled] jdoe.mapping 1 jdoe.pseudonym "/a.log"
      "$\x7ba.b* #\n$\x7b(\x7d and $\x7baxbb\x7d" = .ok outcome ∧
    outcome.matched = true ∧
    ("$\x7ba.b* #\n$\x7b(\x7d" : Text).toList.intercalate pieces =
      ("$\x7ba.b* #\n$\x7b(\x7d and $\x7baxbb\x7d" : Text).toList ∧
    outcome.text.toList = ("ANON-7f3a" : Text).toList.intercalate pieces := by
  obtain ⟨compiled, hcompile, -, hlines⟩ :=
    @redactLine_escaped _ "a.b* #\n$\x7b(" (by decide +kernel) "literal"
  obtain ⟨outcome, pieces, hrun, hmatched, -, hwhole, htext, -⟩ := hlines jdoe.mapping 1
    jdoe.pseudonym "/a.log" "$\x7ba.b* #\n$\x7b(\x7d and $\x7baxbb\x7d"
  exact ⟨compiled, outcome, pieces, hcompile _, hrun, hmatched.mpr (by decide +kernel), hwhole,
    htext⟩

end Sample

end LogRedaction

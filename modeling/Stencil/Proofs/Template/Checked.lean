import Stencil.Proofs.Context.Checked
import Stencil.Proofs.Template.Rendering

/-!
# Rendering under checked contexts

Where the shared context and all own contexts are checked, every rendering gives a text, except for
that of a block that is not there.

* `Selector.IsChecked`: a selector without a context or with a checked one;
* `Template.render_of_isChecked`, `Template.renderOnly_of_isChecked`,
  `Template.renderExcept_of_isChecked`, `Template.renderSome_of_isChecked`: what is rendered has a
  text.
-/

namespace Stencil

theorem concat_of_texts {rs : List (Except Error String)}
    (texts : ∀ r ∈ rs, ∃ text, r = .ok text) : ∃ text, concat rs = .ok text := by
  cases outcome : concat rs with
  | ok text => exact ⟨text, rfl⟩
  | error e =>
    obtain ⟨r, member, e, failed⟩ : ∃ r ∈ rs, ∃ e, id r = .error e :=
      concat_map_fails_iff.1 ⟨e, by rw [List.map_id, outcome]⟩
    obtain ⟨text, shown⟩ := texts r member
    rw [id, shown] at failed
    cases failed

/-- The selector is a bare name, or its own context is checked. -/
def Selector.IsChecked (s : Selector) : Prop := s.context = .null ∨ Context.IsChecked s.context

theorem Selector.IsChecked.contextOr {s : Selector} (h : s.IsChecked) {shared : Context}
    (checked : shared.IsChecked) : Context.IsChecked (s.contextOr shared) := by
  rcases h with bare | own
  · rw [Selector.contextOr, bare]
    exact checked
  · obtain ⟨pairs, supported, same⟩ := own
    rw [Selector.contextOr, same]
    exact ⟨pairs, supported, rfl⟩

section

variable {context : Context} (checked : context.IsChecked)
include checked

theorem Entry.renderAll_of_isChecked (entries : List Entry) :
    ∃ text, Entry.renderAll context entries = .ok text := by
  rw [Entry.renderAll_eq]
  apply concat_of_texts
  intro r member
  obtain ⟨lexeme, -, rfl⟩ := List.mem_map.1 member
  cases lexeme with
  | expression name => exact lookup_of_isChecked checked name
  | text | blockStart | blockStop => exact ⟨_, rfl⟩

theorem Entry.render_of_isChecked (e : Entry) : ∃ text, e.render context = .ok text := by
  cases e with
  | text run => exact ⟨run, rfl⟩
  | expression name => exact lookup_of_isChecked checked name
  | block name body => exact Entry.renderAll_of_isChecked checked body

namespace Template

theorem render_of_isChecked (t : Template) : ∃ text, t.render context = .ok text :=
  Entry.renderAll_of_isChecked checked t.entries

variable {selection : Selection} (own : ∀ s ∈ selection.selectors, s.IsChecked)
include own

theorem renderOnly_of_isChecked (t : Template) :
    ∃ text, t.renderOnly selection context = .ok text := by
  cases selection with
  | single s =>
    unfold renderOnly
    dsimp only
    cases t.search s.name with
    | none => exact ⟨"", rfl⟩
    | some site =>
      have isChecked : s.IsChecked := own s (List.mem_singleton.2 rfl)
      exact site.template.render_of_isChecked (isChecked.contextOr checked)
  | list items =>
    apply concat_of_texts
    intro r member
    obtain ⟨child, -, member⟩ := List.mem_flatMap.1 member
    obtain ⟨s, listed, rfl⟩ := List.mem_map.1 member
    have isChecked : s.IsChecked := own s (List.mem_filter.1 listed).1
    exact child.render_of_isChecked (isChecked.contextOr checked)

theorem contextFor_of_isChecked (name : String) :
    (contextFor selection.selectors context name).IsChecked := by
  unfold contextFor
  split
  · next s found => exact (own s (List.mem_of_find?_eq_some found)).contextOr checked
  · exact checked

theorem renderSome_of_isChecked (t : Template) :
    ∃ text, t.renderSome selection context = .ok text := by
  have contexts := contextFor_of_isChecked checked own
  unfold renderSome
  split
  · exact ⟨"", rfl⟩
  · next selectors _ =>
    apply concat_of_texts
    intro r member
    obtain ⟨e, -, rfl⟩ := List.mem_map.1 member
    cases e with
    | block name body => exact Entry.render_of_isChecked (contexts name) _
    | text | expression => exact Entry.render_of_isChecked checked _

omit own in
theorem renderExcept_of_isChecked (t : Template) (selection : Selection) :
    ∃ text, t.renderExcept selection context = .ok text := by
  unfold renderExcept
  split
  · exact ⟨"", rfl⟩
  · exact Entry.renderAll_of_isChecked checked _

end Template

end

end Stencil

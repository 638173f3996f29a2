/-
Whose text is posted.

A text view of a task or a reply is in order when it holds just what the user has
written, or the placeholder while nothing has been written.  Two things bring it out of
order: writing into the placeholder, which then stays in the text, and writing the
placeholder's own words, which the app takes for the placeholder and removes.  And one
thing is wrong even while it is in order: `postTask` and `replyTask` post the
placeholder, which `didTapSubmit` of the comments does not.
-/
import GoodThing.Controller.Editing
import GoodThing.Proofs.Response
import GoodThing.Proofs.TaskPool

namespace GoodThing

open Firestore Machine

/-! ### The text view of a task or a reply -/

namespace ContentView

/-- The text is what the user has written. -/
def Own (v : ContentView) : Prop := v.text = v.net.map fun c => ⟨c, true⟩

/-- The text is the placeholder, and the user has written nothing. -/
def Waiting (v : ContentView) : Prop := v.text = placeholderText ∧ v.net = []

def InOrder (v : ContentView) : Prop := v.Own ∨ v.Waiting

theorem Own.string_eq {v : ContentView} (h : v.Own) : v.string = String.ofList v.net := by
  unfold string
  rw [h, List.map_map]
  congr 1
  exact List.map_id v.net

theorem string_of_placeholder {v : ContentView} (h : v.text = placeholderText) :
    v.string = textViewPlaceHolderText := by
  unfold string
  rw [h]
  rfl

theorem string_isEmpty_iff {v : ContentView} : v.string.isEmpty = true ↔ v.text = [] := by
  unfold string
  rw [String.isEmpty_iff, String.ofList_eq_empty_iff, List.map_eq_nil_iff]

theorem placeholderText_ne_nil : placeholderText ≠ [] := by decide

theorem Own.typed {v : ContentView} (h : v.Own) : ∀ g ∈ v.text, g.typed = true := by
  intro g hg
  rw [h] at hg
  obtain ⟨c, -, rfl⟩ := List.mem_map.mp hg
  rfl

/-- In a text of their own every character counts. -/
theorem Own.typedBefore {v : ContentView} (h : v.Own) (location : Nat) :
    v.typedBefore location = min location v.net.length := by
  unfold ContentView.typedBefore
  rw [h, ← List.map_take, List.countP_map, List.countP_eq_length.mpr, List.length_take]
  intro c _
  rfl

theorem inOrder_beginEditing {v : ContentView} (h : v.InOrder)
    (hwords : v.net ≠ textViewPlaceHolderText.toList) : v.textViewDidBeginEditing.InOrder := by
  unfold textViewDidBeginEditing
  rcases h with hown | hwaiting
  · rw [if_neg]
    · exact Or.inl hown
    · rw [hown.string_eq]
      intro heq
      exact hwords (by rw [← heq, String.toList_ofList])
  · rw [if_pos (string_of_placeholder hwaiting.1)]
    refine Or.inl ?_
    show [] = v.net.map _
    rw [hwaiting.2]
    rfl

theorem inOrder_endEditing {v : ContentView} (h : v.InOrder) :
    v.textViewDidEndEditing.InOrder := by
  unfold textViewDidEndEditing
  by_cases hempty : v.string.isEmpty = true
  · rw [if_pos hempty]
    refine Or.inr ⟨rfl, ?_⟩
    rcases h with hown | hwaiting
    · unfold Own at hown
      rw [string_isEmpty_iff.mp hempty] at hown
      exact List.map_eq_nil_iff.mp hown.symm
    · exact hwaiting.2
  · rw [if_neg hempty]
    exact h

theorem Own.length_text {v : ContentView} (h : v.Own) : v.text.length = v.net.length := by
  rw [h, List.length_map]

/-! ### What an edit does to the text -/

theorem text_edit (v : ContentView) (location length : Nat) (text : List Char) :
    (v.edit location length text).text
      = (v.shouldChangeText length text).text.take location ++ text.map (⟨·, true⟩) ++
        (v.shouldChangeText length text).text.drop (location + length) := rfl

theorem net_edit (v : ContentView) (location length : Nat) (text : List Char) :
    (v.edit location length text).net
      = v.net.take (v.typedBefore location) ++ text ++
        v.net.drop (v.typedBefore (location + length)) := rfl

/-- The delegate stays out of it when something is written. -/
theorem shouldChangeText_write (v : ContentView) (length : Nat) {text : List Char}
    (h : text ≠ []) : v.shouldChangeText length text = v := by
  simp [shouldChangeText, h]

/-- A deletion in a text that reads like the placeholder removes all of it. -/
theorem text_edit_delete {v : ContentView} (hstring : v.string = textViewPlaceHolderText)
    (location : Nat) {length : Nat} (hlength : length > 0) :
    (v.edit location length []).text = [] := by
  have hasked : v.shouldChangeText length [] = v.clear := by
    simp [shouldChangeText, hlength, hstring]
  rw [text_edit, hasked]
  simp [clear]

/-- An edit of the placeholder that writes nothing, or replaces it as a whole. -/
theorem Waiting.inOrder_edit {v : ContentView} (h : v.Waiting) {location length : Nat}
    {text : List Char} (hrange : location + length ≤ v.text.length)
    (hcare : text = [] ∨ length = v.text.length) : (v.edit location length text).InOrder := by
  have hstring := string_of_placeholder h.1
  have hnet : (v.edit location length text).net = text := by
    rw [net_edit, h.2]
    simp
  by_cases htext : text = []
  · subst htext
    by_cases hlength : length > 0
    · -- The delegate removes the placeholder.
      refine Or.inl ?_
      unfold Own
      rw [hnet, text_edit_delete hstring location hlength]
      rfl
    · refine Or.inr ⟨?_, hnet⟩
      have hasked : v.shouldChangeText length [] = v := by
        have hne : v.string.isEmpty = false := by
          rw [hstring]
          rfl
        simp [shouldChangeText, hlength, hne]
      obtain rfl : length = 0 := by omega
      rw [text_edit, hasked, h.1]
      simp
  · refine Or.inl ?_
    have hwhole := hcare.resolve_left htext
    obtain rfl : location = 0 := by omega
    unfold Own
    rw [hnet, text_edit, shouldChangeText_write v length htext, hwhole]
    simp

/-- What the delegate may do to the text before the edit. -/
theorem shouldChangeText_cases (v : ContentView) (length : Nat) (text : List Char) :
    (text = [] ∧ length > 0 ∧ v.string = textViewPlaceHolderText ∧
      v.shouldChangeText length text = v.clear) ∨
    (text = [] ∧ v.text = [] ∧ v.shouldChangeText length text = v.showPlaceholder) ∨
    v.shouldChangeText length text = v := by
  unfold shouldChangeText
  split
  · rename_i h
    simp only [Bool.and_eq_true, List.isEmpty_iff, decide_eq_true_eq, beq_iff_eq] at h
    exact Or.inl ⟨h.1.1, h.1.2, h.2, rfl⟩
  · split
    · rename_i h
      simp only [Bool.and_eq_true, List.isEmpty_iff] at h
      exact Or.inr (Or.inl ⟨h.2, string_isEmpty_iff.mp h.1, rfl⟩)
    · exact Or.inr (Or.inr rfl)

/-- An edit of the user's own text, unless it takes away some of the placeholder's words. -/
theorem Own.inOrder_edit {v : ContentView} (h : v.Own) {location length : Nat}
    {text : List Char} (hrange : location + length ≤ v.text.length)
    (hcare : v.net = textViewPlaceHolderText.toList → text = [] → length > 0 →
      length = v.text.length) : (v.edit location length text).InOrder := by
  have hlen := h.length_text
  have hnet : (v.edit location length text).net
      = v.net.take location ++ text ++ v.net.drop (location + length) := by
    rw [net_edit, h.typedBefore, h.typedBefore, Nat.min_eq_left (by omega),
      Nat.min_eq_left (by omega)]
  rcases shouldChangeText_cases v length text with ⟨hempty, hlength, hstring, -⟩ |
    ⟨hempty, hnil, hasked⟩ | hasked
  · -- The user deletes the whole text, which happens to read like the placeholder.
    have hwords : v.net = textViewPlaceHolderText.toList := by
      rw [← hstring, h.string_eq, String.toList_ofList]
    have hwhole := hcare hwords hempty hlength
    obtain rfl : location = 0 := by omega
    refine Or.inl ?_
    unfold Own
    rw [hnet, hempty, text_edit_delete hstring 0 hlength, hwhole, hlen]
    simp
  · -- Deleting in an empty view brings the placeholder back.
    have hnone : v.net = [] := List.length_eq_zero_iff.mp (by rw [← hlen, hnil]; rfl)
    have hzero : location + length = 0 := by
      rw [hnil] at hrange
      simpa using hrange
    obtain rfl : location = 0 := by omega
    refine Or.inr ⟨?_, ?_⟩
    · rw [text_edit, hasked, hempty, hzero]
      simp [showPlaceholder]
    · rw [hnet, hnone, hempty]
      simp
  · refine Or.inl ?_
    unfold Own
    rw [text_edit, hnet, hasked, h]
    simp

end ContentView

open ContentView

/-! ### Posting it -/

section

variable {F : Type} {screen : TextScreen F}

/-- A screen posts a text that is not empty, and posts it as it is. -/
structure KeepsText (screen : TextScreen F) : Prop where
  stores : ∀ rest content d, screen.post rest (some content) = some d →
    screen.ready rest = true ∧ content ≠ "" ∧ d screen.field = some (.string content)
  posts : ∀ rest content, screen.ready rest = true → content ≠ "" →
    ∃ d, screen.post rest (some content) = some d

theorem keepsText_postTask : KeepsText postTaskText where
  stores := by
    intro rest content d h
    obtain ⟨title, content', creator, htitle, hcontent, huser, hstores, -⟩ := postTask_stores h
    obtain ⟨hsome, hne⟩ := filled_eq_some.mp hcontent
    obtain rfl : content = content' := Option.some.inj hsome
    refine ⟨?_, by simpa using hne, ?_⟩
    · have huser' : rest.userId = some creator := huser
      have htitle' : filled rest.form.taskTitle = some title := htitle
      simp [postTaskText, htitle', huser']
    · show d "taskContent" = _
      rw [hstores "taskContent" (by simp [taskCodec])]
      rfl
  posts := by
    intro rest content hready hne
    simp only [postTaskText, Bool.and_eq_true, Option.isSome_iff_exists] at hready
    obtain ⟨⟨title, htitle⟩, creator, huser⟩ := hready
    simp only [postTaskText, postTask, htitle, huser, filled_of_ne hne]
    cases rest.form.recordingURL with
    | none => exact ⟨_, rfl⟩
    | some recordURL => exact ⟨_, rfl⟩

theorem keepsText_replyTask : KeepsText replyTaskText where
  stores := by
    intro rest content d h
    obtain ⟨r, hr, rfl⟩ := Option.map_eq_some_iff.mp h
    obtain ⟨title, content', task, htitle, hcontent, htask, hid, hd⟩ := replyTask_eq hr
    obtain ⟨hsome, hne⟩ := filled_eq_some.mp hcontent
    obtain rfl : content = content' := Option.some.inj hsome
    refine ⟨?_, by simpa using hne, ?_⟩
    · have htitle' : filled rest.form.replyTitle = some title := htitle
      simp [replyTaskText, htitle', htask, hid]
    · rw [hd]
      rfl
  posts := by
    intro rest content hready hne
    simp only [replyTaskText, Bool.and_eq_true, Option.isSome_iff_exists,
      Option.bind_eq_some_iff] at hready
    obtain ⟨⟨title, htitle⟩, id, task, htask, hid⟩ := hready
    simp only [replyTaskText, replyTask, htitle, htask, filled_of_ne hne, Option.bind_eq_bind,
      Option.bind_some, hid]
    exact ⟨_, rfl⟩

/-- Every posted text is the user's own, all of it and nothing else. -/
def PostedOwn (screen : TextScreen F) (s : ContentState) : Prop :=
  ∀ p ∈ s.posted, p.2.net ≠ [] ∧ p.1 screen.field = some (.string (String.ofList p.2.net)) ∧
    ∀ g ∈ p.2.text, g.typed = true

/--
Nothing is posted while the placeholder stands in the view, nothing written into it unless
it is replaced as a whole, and once the user's text reads like the placeholder, editing
does not begin again and no part of it is deleted.
-/
def WithCare (screen : TextScreen F) (s : ContentState) : ContentAction F → Prop
  | .beginEditing => s.view.net ≠ textViewPlaceHolderText.toList
  | .endEditing => True
  | .edit location length text => location + length ≤ s.view.text.length →
      (s.view.text = placeholderText → text = [] ∨ length = s.view.text.length) ∧
      (s.view.net = textViewPlaceHolderText.toList → text = [] → length > 0 →
        length = s.view.text.length)
  | .post rest => s.view.text = placeholderText → screen.ready rest = false

/-- The view is in order, and everything posted is the user's own. -/
def OwnOnly (screen : TextScreen F) (s : ContentState) : Prop :=
  s.view.InOrder ∧ PostedOwn screen s

theorem ownOnly_step (hscreen : KeepsText screen) {s : ContentState} {a : ContentAction F}
    (h : OwnOnly screen s) (hcare : WithCare screen s a) :
    OwnOnly screen (contentStep screen s a) := by
  obtain ⟨hview, hposted⟩ := h
  cases a with
  | beginEditing => exact ⟨inOrder_beginEditing hview hcare, hposted⟩
  | endEditing => exact ⟨inOrder_endEditing hview, hposted⟩
  | edit location length text =>
      simp only [contentStep]
      by_cases hrange : location + length ≤ s.view.text.length
      · rw [if_pos hrange]
        refine ⟨?_, hposted⟩
        rcases hview with hown | hwaiting
        · exact hown.inOrder_edit hrange (hcare hrange).2
        · exact hwaiting.inOrder_edit hrange ((hcare hrange).1 hwaiting.1)
      · rw [if_neg hrange]
        exact ⟨hview, hposted⟩
  | post rest =>
      simp only [contentStep]
      cases hpost : screen.post rest (some s.view.string) with
      | none => exact ⟨hview, hposted⟩
      | some d =>
          obtain ⟨hready, hne, hfield⟩ := hscreen.stores rest _ d hpost
          -- The placeholder is not there, so the text is the user's own.
          have hown : s.view.Own := by
            refine hview.resolve_right ?_
            intro hwaiting
            rw [hcare hwaiting.1] at hready
            cases hready
          refine ⟨hview, ?_⟩
          intro p hp
          rcases List.mem_cons.mp hp with rfl | hold
          · rw [hown.string_eq] at hne hfield
            refine ⟨?_, hfield, hown.typed⟩
            intro hnil
            have hnil' : s.view.net = [] := hnil
            rw [hnil'] at hne
            exact hne rfl
          · exact hposted p hold

theorem ownOnly_of_care (hscreen : KeepsText screen) (as : List (ContentAction F))
    (h : Guarded (contentStep screen) (WithCare screen) openContent as) :
    Always (contentStep screen) (OwnOnly screen) openContent as :=
  always_of_guarded (fun s a => ownOnly_step hscreen (s := s) (a := a)) as openContent
    ⟨Or.inr ⟨rfl, rfl⟩, nofun⟩ h

/-! ### No step less will do

After a step without care the text is no longer what the user has written, and it takes
no further carelessness to post it.
-/

theorem post_of_ready (hscreen : KeepsText screen) {s : ContentState} {rest : F}
    (hready : screen.ready rest = true) (htext : s.view.text ≠ []) :
    ∃ d, d screen.field = some (.string s.view.string) ∧
      contentStep screen s (.post rest) = { s with posted := (d, s.view) :: s.posted } := by
  have hne : s.view.string ≠ "" := by
    intro hempty
    exact htext (string_isEmpty_iff.mp (by rw [hempty]; rfl))
  obtain ⟨d, hd⟩ := hscreen.posts rest _ hready hne
  exact ⟨d, (hscreen.stores rest _ d hd).2.2, by simp only [contentStep, hd]⟩

/-- A character the user has not typed is posted with the rest. -/
theorem post_untyped (hscreen : KeepsText screen) {s : ContentState} {rest : F}
    (hready : screen.ready rest = true) {g : Glyph} (hg : g ∈ s.view.text)
    (huntyped : g.typed = false) :
    ¬ PostedOwn screen (contentStep screen s (.post rest)) := by
  obtain ⟨d, -, hstep⟩ := post_of_ready hscreen hready (List.ne_nil_of_mem hg)
  rw [hstep]
  intro hown
  have htyped := (hown _ List.mem_cons_self).2.2 g hg
  rw [huntyped] at htyped
  cases htyped

/-- When the app has removed what the user wrote, what they write next is posted alone. -/
theorem post_removed (hscreen : KeepsText screen) {s : ContentState} {rest : F}
    (hready : screen.ready rest = true) (htext : s.view.text = []) (hnet : s.view.net ≠ []) :
    ∃ as, Guarded (contentStep screen) (WithCare screen) s as ∧
      ¬ PostedOwn screen (run (contentStep screen) s as) := by
  let next : ContentState := { s with view := s.view.edit 0 0 ['a'] }
  have hstep : contentStep screen s (.edit 0 0 ['a']) = next := by
    simp only [contentStep, htext, List.length_nil, Nat.le_refl, if_true]
    rfl
  have hnext : next.view.text = [⟨'a', true⟩] ∧ next.view.net = 'a' :: s.view.net := by
    refine ⟨?_, ?_⟩
    · rw [text_edit, shouldChangeText_write s.view 0 (List.cons_ne_nil 'a' []), htext]
      rfl
    · rw [net_edit, ContentView.typedBefore, List.take_zero]
      rfl
  refine ⟨[.edit 0 0 ['a'], .post rest], ?_, ?_⟩
  · rw [guarded_cons, guarded_cons, hstep]
    refine ⟨?_, ?_, guarded_nil⟩
    · intro _
      exact ⟨fun heq => absurd (htext.symm.trans heq).symm placeholderText_ne_nil, nofun⟩
    · intro heq
      rw [hnext.1] at heq
      exact absurd heq (by decide)
  · rw [run_cons, run_cons, run_nil, hstep]
    have hne : next.view.text ≠ [] := by
      rw [hnext.1]
      exact List.cons_ne_nil _ _
    obtain ⟨d, hfield, hpost⟩ := post_of_ready hscreen hready hne
    rw [hpost]
    intro hown
    have hsame : d screen.field = some (.string (String.ofList next.view.net)) :=
      (hown _ List.mem_cons_self).2.1
    have hstring : next.view.string = "a" := by
      unfold string
      rw [hnext.1]
      rfl
    rw [hfield, hstring] at hsame
    have hlist : "a" = String.ofList next.view.net := Value.string.inj (Option.some.inj hsame)
    rw [hnext.2] at hlist
    have hchars : ['a'] = 'a' :: s.view.net := String.ofList_injective hlist
    exact hnet (List.cons.inj hchars).2.symm

/-- What has just been written does not stand in the placeholder. -/
theorem edit_ne_placeholder {v : ContentView} {location length : Nat} {text : List Char}
    (htext : text ≠ []) : (v.edit location length text).text ≠ placeholderText := by
  intro heq
  obtain ⟨c, hc⟩ := List.exists_mem_of_ne_nil _ htext
  have hmem : (⟨c, true⟩ : Glyph) ∈ placeholderText := by
    rw [← heq]
    exact List.mem_append_left _ (List.mem_append_right _ (List.mem_map_of_mem hc))
  obtain ⟨c', -, hc'⟩ := List.mem_map.mp hmem
  cases hc'

/-- Some of the placeholder is left when not all of it is replaced. -/
theorem untyped_edit {v : ContentView} (h : v.text = placeholderText)
    {location length : Nat} {text : List Char} (htext : text ≠ [])
    (hrange : location + length ≤ v.text.length) (hpart : length ≠ v.text.length) :
    ∃ g ∈ (v.edit location length text).text, g.typed = false := by
  have huntyped : ∀ g ∈ v.text, g.typed = false := by
    intro g hg
    rw [h] at hg
    obtain ⟨c, -, rfl⟩ := List.mem_map.mp hg
    rfl
  rw [text_edit, shouldChangeText_write v length htext]
  by_cases hlocation : location = 0
  · have hdrop : v.text.drop (location + length) ≠ [] := by
      rw [Ne, List.drop_eq_nil_iff]
      omega
    obtain ⟨g, hg⟩ := List.exists_mem_of_ne_nil _ hdrop
    exact ⟨g, List.mem_append_right _ hg, huntyped g (List.mem_of_mem_drop hg)⟩
  · have htake : v.text.take location ≠ [] := by
      rw [Ne, List.take_eq_nil_iff]
      rintro (hzero | hnil)
      · exact hlocation hzero
      · rw [hnil] at hrange
        simp only [List.length_nil] at hrange
        omega
    obtain ⟨g, hg⟩ := List.exists_mem_of_ne_nil _ htake
    exact ⟨g, List.mem_append_left _ (List.mem_append_left _ hg),
      huntyped g (List.mem_of_mem_take hg)⟩

/-- A step without care leads to a post of something else than the user's text. -/
theorem careless_step (hscreen : KeepsText screen) {s : ContentState} {a : ContentAction F}
    {rest : F} (hready : screen.ready rest = true) (h : s.view.InOrder)
    (hcare : ¬ WithCare screen s a) :
    ∃ bs, Guarded (contentStep screen) (WithCare screen) (contentStep screen s a) bs ∧
      ¬ PostedOwn screen (run (contentStep screen) (contentStep screen s a) bs) := by
  have hwords : textViewPlaceHolderText.toList ≠ [] := by decide
  cases a with
  | beginEditing =>
      -- The user's own text is taken for the placeholder and removed.
      have hnet : s.view.net = textViewPlaceHolderText.toList := Classical.not_not.mp hcare
      have hstring : s.view.string = textViewPlaceHolderText := by
        rcases h with hown | hwaiting
        · rw [hown.string_eq, hnet, String.ofList_toList]
        · exact string_of_placeholder hwaiting.1
      have hstep : contentStep screen s .beginEditing = { s with view := s.view.clear } := by
        simp only [contentStep, textViewDidBeginEditing, if_pos hstring]
      rw [hstep]
      exact post_removed hscreen hready rfl (by rw [← hnet] at hwords; exact hwords)
  | endEditing => exact absurd trivial hcare
  | edit location length text =>
      simp only [WithCare, Classical.not_imp] at hcare
      obtain ⟨hrange, hcare⟩ := hcare
      have hstep : contentStep screen s (.edit location length text)
          = { s with view := s.view.edit location length text } := by
        simp only [contentStep, if_pos hrange]
      rw [hstep]
      by_cases hplaceholder : s.view.text = placeholderText → text = [] ∨ length = s.view.text.length
      · -- Some of the user's own text is deleted, and the app removes the rest.
        have hwhole := not_and.mp hcare hplaceholder
        simp only [Classical.not_imp] at hwhole
        obtain ⟨hnet, hnil, hlength, hpart⟩ := hwhole
        have hown : s.view.Own := by
          refine h.resolve_right ?_
          intro hwaiting
          exact hwords (hnet.symm.trans hwaiting.2)
        have hstring : s.view.string = textViewPlaceHolderText := by
          rw [hown.string_eq, hnet, String.ofList_toList]
        subst hnil
        refine post_removed hscreen hready (text_edit_delete hstring location hlength) ?_
        rw [net_edit]
        intro hempty
        have hlen := hown.length_text
        have hzero := congrArg List.length hempty
        simp only [List.append_nil, List.length_append, List.length_take, List.length_drop,
          List.length_nil, hown.typedBefore] at hzero
        omega
      · -- Something is written into the placeholder.
        simp only [Classical.not_imp, not_or] at hplaceholder
        obtain ⟨hshown, hwritten, hpart⟩ := hplaceholder
        obtain ⟨g, hg, huntyped⟩ := untyped_edit hshown hwritten hrange hpart
        refine ⟨[.post rest], ?_, ?_⟩
        · rw [guarded_cons]
          refine ⟨?_, guarded_nil⟩
          intro hsame
          exact absurd hsame (edit_ne_placeholder hwritten)
        · exact post_untyped hscreen hready hg huntyped
  | post post =>
      simp only [WithCare, Classical.not_imp] at hcare
      obtain ⟨htext, hpost⟩ := hcare
      have hmem : (⟨'請', false⟩ : Glyph) ∈ s.view.text := by
        rw [htext]
        decide
      exact ⟨[], guarded_nil, post_untyped hscreen (by simpa using hpost) hmem rfl⟩

/--
A run with care posts the user's own text only, and a run without it comes to a state
after which care is of no use.
-/
theorem care_exact (hscreen : KeepsText screen) (rest : F) (hready : screen.ready rest = true)
    (as : List (ContentAction F)) :
    (Guarded (contentStep screen) (WithCare screen) openContent as →
      Always (contentStep screen) (PostedOwn screen) openContent as) ∧
    (¬ Guarded (contentStep screen) (WithCare screen) openContent as →
      ∃ pre bs, pre <+: as ∧
        Guarded (contentStep screen) (WithCare screen)
          (run (contentStep screen) openContent pre) bs ∧
        ¬ PostedOwn screen (run (contentStep screen) openContent (pre ++ bs))) := by
  refine ⟨?_, ?_⟩
  · intro h
    exact (ownOnly_of_care hscreen as h).mono fun s hs => hs.2
  · intro h
    obtain ⟨pre, a, hpre, hguard, hcare⟩ := exists_unguarded h
    have hview := (ownOnly_of_care hscreen pre hguard).last.1
    obtain ⟨bs, hbs, hposted⟩ := careless_step hscreen hready hview hcare
    have hrun : run (contentStep screen) openContent (pre ++ [a])
        = contentStep screen (run (contentStep screen) openContent pre) a := by
      rw [run_append, run_cons, run_nil]
    refine ⟨pre ++ [a], bs, hpre, ?_, ?_⟩
    · rw [hrun]
      exact hbs
    · rw [run_append, hrun]
      exact hposted

end

/-- A task with a title, posted by a user who is signed in. -/
def titled : TaskPost := ⟨greeting, some "ella", "2023.10.13", 1 / 2, "t1"⟩

/-- A reply with a title to that task. -/
def titledReply : TaskReply :=
  ⟨⟨some "早安", none, none, none, "2023.10.14 10:00"⟩,
    some ⟨"t1", "打招呼", "跟鄰居說早安", none, none, "ella", "2023.10.13 20:15"⟩, some "hank"⟩

/--
Whatever is posted by a user who leaves the placeholder alone is their own text, on the
screen for tasks and on the one for replies, and nothing less will do.
-/
theorem own_text_posted (as : List (ContentAction TaskPost))
    (bs : List (ContentAction TaskReply)) :
    ((Guarded (contentStep postTaskText) (WithCare postTaskText) openContent as →
        Always (contentStep postTaskText) (PostedOwn postTaskText) openContent as) ∧
      (¬ Guarded (contentStep postTaskText) (WithCare postTaskText) openContent as →
        ∃ pre cs, pre <+: as ∧
          Guarded (contentStep postTaskText) (WithCare postTaskText)
            (run (contentStep postTaskText) openContent pre) cs ∧
          ¬ PostedOwn postTaskText
            (run (contentStep postTaskText) openContent (pre ++ cs)))) ∧
    ((Guarded (contentStep replyTaskText) (WithCare replyTaskText) openContent bs →
        Always (contentStep replyTaskText) (PostedOwn replyTaskText) openContent bs) ∧
      (¬ Guarded (contentStep replyTaskText) (WithCare replyTaskText) openContent bs →
        ∃ pre cs, pre <+: bs ∧
          Guarded (contentStep replyTaskText) (WithCare replyTaskText)
            (run (contentStep replyTaskText) openContent pre) cs ∧
          ¬ PostedOwn replyTaskText
            (run (contentStep replyTaskText) openContent (pre ++ cs)))) :=
  ⟨care_exact keepsText_postTask titled rfl as, care_exact keepsText_replyTask titledReply rfl bs⟩

/-- Editing begins, two characters are written and the task is posted with them. -/
theorem good_morning_posted :
    Always (contentStep postTaskText) (PostedOwn postTaskText) openContent
      [.beginEditing, .edit 0 0 ['早', '安'], .post titled] := by
  refine (own_text_posted _ []).1.1 ?_
  rw [guarded_cons, guarded_cons, guarded_cons]
  refine ⟨?_, ?_, ?_, guarded_nil⟩
  · show _ ≠ _
    decide
  · intro _
    exact ⟨fun h => absurd h (by decide), fun h => absurd h (by decide)⟩
  · intro h
    exact absurd h (by decide)

/-- A title is given, nothing is written, and the placeholder is posted. -/
theorem placeholder_posted :
    ¬ Always (contentStep postTaskText) (PostedOwn postTaskText) openContent [.post titled] := by
  intro h
  exact (h.last _ List.mem_cons_self).1 rfl

/-! ### The text view of a comment -/

namespace CommentState

/-- The colour tells the placeholder from what the user has written. -/
structure Legible (s : CommentState) : Prop where
  gray : s.textColor = .lightGray → s.text = commentPlaceholder.toList
  black : s.textColor = .black → s.text ≠ commentPlaceholder.toList

/-- The button posts what the user has written, if it is anything, and says so. -/
structure Faithful (s : CommentState) : Prop where
  posts_iff : ∀ memory time id,
    (didTapSubmit s.string (some memory) time id).isSome = true ↔ s.net ≠ []
  content : ∀ memory time id d, didTapSubmit s.string (some memory) time id = some d →
    d "commentContent" = some (.string (String.ofList s.net))
  title : s.edited = true → (s.title = "提交" ↔ s.net ≠ [])

theorem string_eq_iff {s : CommentState} {text : String} :
    s.string = text ↔ s.text = text.toList := by
  unfold string
  refine ⟨?_, ?_⟩
  · intro h
    rw [← h, String.toList_ofList]
  · intro h
    rw [h, String.ofList_toList]

theorem isEmpty_iff {s : CommentState} : s.string.isEmpty = true ↔ s.text = [] := by
  rw [String.isEmpty_iff, string_eq_iff]
  rfl

/-- With nothing in the view, or the placeholder's words, nothing is posted. -/
theorem didTapSubmit_eq_none {s : CommentState}
    (h : s.text = [] ∨ s.text = commentPlaceholder.toList) (memory : GoodThingMemory)
    (time id : String) : didTapSubmit s.string (some memory) time id = none := by
  unfold didTapSubmit
  rw [if_pos]
  rw [Bool.or_eq_true, isEmpty_iff, beq_iff_eq, string_eq_iff]
  exact h

/-- Anything else is posted as it stands. -/
theorem didTapSubmit_eq_some {s : CommentState} (hne : s.text ≠ [])
    (hwords : s.text ≠ commentPlaceholder.toList) (memory : GoodThingMemory) (time id : String) :
    ∃ d, didTapSubmit s.string (some memory) time id = some d ∧
      d "commentContent" = some (.string s.string) := by
  have hstring : s.string ≠ "" := fun hempty => hne (string_eq_iff.mp hempty)
  unfold didTapSubmit
  rw [if_neg]
  · simp only [postCommet, filled_of_ne hstring]
    exact ⟨_, rfl, rfl⟩
  · rw [Bool.or_eq_true, isEmpty_iff, beq_iff_eq, string_eq_iff]
    rintro (hnil | hsame)
    · exact hne hnil
    · exact hwords hsame

/-- Nothing is posted, so nothing may have been written. -/
theorem faithful_blank_iff {s : CommentState}
    (h : s.text = [] ∨ s.text = commentPlaceholder.toList) :
    s.Faithful ↔ s.net = [] ∧ (s.edited = true → s.title ≠ "提交") := by
  have hnone := didTapSubmit_eq_none h
  refine ⟨?_, ?_⟩
  · intro hf
    have hposts := hf.posts_iff ⟨"", "", "", none, none, true, "", ""⟩ "" ""
    rw [hnone] at hposts
    have hnet : s.net = [] := by
      by_contra hne
      exact absurd (hposts.mpr hne) Bool.false_ne_true
    refine ⟨hnet, ?_⟩
    intro hedited htitle
    exact (hf.title hedited).mp htitle hnet
  · rintro ⟨hnet, htitle⟩
    refine ⟨?_, ?_, ?_⟩
    · intro memory time id
      rw [hnone, hnet]
      simp
    · intro memory time id d hd
      rw [hnone] at hd
      cases hd
    · intro hedited
      exact ⟨fun ht => absurd ht (htitle hedited), fun hne => absurd hnet hne⟩

/-- The text is posted, so it has to be what has been written. -/
theorem faithful_text_iff {s : CommentState} (hne : s.text ≠ [])
    (hwords : s.text ≠ commentPlaceholder.toList) :
    s.Faithful ↔ s.net = s.text ∧ (s.edited = true → s.title = "提交") := by
  have hsome := didTapSubmit_eq_some hne hwords
  refine ⟨?_, ?_⟩
  · intro hf
    obtain ⟨d, hd, hcontent⟩ := hsome ⟨"", "", "", none, none, true, "", ""⟩ "" ""
    have hsame := hf.content _ _ _ d hd
    rw [hcontent] at hsame
    have hnet : s.text = s.net :=
      String.ofList_injective (Value.string.inj (Option.some.inj hsame))
    refine ⟨hnet.symm, ?_⟩
    intro hedited
    exact (hf.title hedited).mpr (by rw [← hnet]; exact hne)
  · rintro ⟨hnet, htitle⟩
    refine ⟨?_, ?_, ?_⟩
    · intro memory time id
      obtain ⟨d, hd, -⟩ := hsome memory time id
      rw [hd, hnet]
      simp [hne]
    · intro memory time id d hd
      obtain ⟨d', hd', hcontent⟩ := hsome memory time id
      obtain rfl : d = d' := Option.some.inj (hd.symm.trans hd')
      rw [hcontent, hnet]
      rfl
    · intro hedited
      exact ⟨fun _ => by rw [hnet]; exact hne, fun _ => htitle hedited⟩

/-! ### What an edit does -/

/-- The view is emptied, and the placeholder comes back. -/
theorem textViewDidChange_nil {s : CommentState} (h : s.text = []) :
    s.textViewDidChange = { s with
      text := commentPlaceholder.toList, textColor := .lightGray, title := "取消" } := by
  simp only [textViewDidChange, if_pos (isEmpty_iff.mpr h)]
  rfl

/-- The placeholder has been edited, and is removed with whatever was written into it. -/
theorem textViewDidChange_gray {s : CommentState} (hne : s.text ≠ [])
    (hgray : s.textColor = .lightGray) :
    s.textViewDidChange = { s with text := [], textColor := .black, title := "取消" } := by
  simp only [textViewDidChange, if_neg (fun h => hne (isEmpty_iff.mp h)), if_pos hgray]
  rfl

theorem textViewDidChange_black {s : CommentState} (hne : s.text ≠ [])
    (hblack : s.textColor = .black) :
    s.textViewDidChange = { s with
      title := if s.text = commentPlaceholder.toList then "取消" else "提交" } := by
  have hgray : ¬ s.textColor = .lightGray := by
    rw [hblack]
    nofun
  have hempty : ¬ s.string.isEmpty = true := fun h => hne (isEmpty_iff.mp h)
  simp only [textViewDidChange, if_neg hempty, if_neg hgray]
  congr 1
  by_cases hwords : s.text = commentPlaceholder.toList
  · rw [if_pos hwords, if_pos]
    rw [Bool.or_eq_true, beq_iff_eq, string_eq_iff]
    exact Or.inr hwords
  · rw [if_neg hwords, if_neg]
    rw [Bool.or_eq_true, beq_iff_eq, string_eq_iff]
    rintro (h | h)
    · exact hempty h
    · exact hwords h

/-- In a legible view the placeholder stands for nothing, and a text for itself. -/
theorem Legible.net_eq {s : CommentState} (hl : s.Legible) (hf : s.Faithful) :
    (s.textColor = .lightGray → s.net = []) ∧ (s.textColor = .black → s.net = s.text) := by
  refine ⟨?_, ?_⟩
  · intro hgray
    exact ((faithful_blank_iff (Or.inr (hl.gray hgray))).mp hf).1
  · intro hblack
    by_cases hnil : s.text = []
    · rw [((faithful_blank_iff (Or.inl hnil)).mp hf).1, hnil]
    · exact ((faithful_text_iff hnil (hl.black hblack)).mp hf).1

/--
An edit of a text in black: it is posted as it should be exactly when it does not read
like the placeholder, and the colour tells the two apart only then.
-/
theorem faithful_edited {s : CommentState} (text : List Char) (hblack : s.textColor = .black) :
    let s' : CommentState := { s with text := text, net := text, edited := true }
    (s'.textViewDidChange.Faithful ↔ text ≠ commentPlaceholder.toList) ∧
    (text ≠ commentPlaceholder.toList → s'.textViewDidChange.Legible) := by
  intro s'
  by_cases hnil : text = []
  · have hne : text ≠ commentPlaceholder.toList := by
      rw [hnil]
      decide
    rw [textViewDidChange_nil (s := s') hnil]
    refine ⟨⟨fun _ => hne, fun _ => ?_⟩, fun _ => ⟨fun _ => rfl, nofun⟩⟩
    refine (faithful_blank_iff (Or.inr rfl)).mpr ⟨hnil, ?_⟩
    intro _
    show "取消" ≠ "提交"
    decide
  · rw [textViewDidChange_black (s := s') hnil hblack]
    have hcolor : s'.textColor = .black := hblack
    by_cases hwords : text = commentPlaceholder.toList
    · refine ⟨?_, fun h => absurd hwords h⟩
      rw [faithful_blank_iff (Or.inr hwords)]
      exact ⟨fun h => absurd h.1 hnil, fun h => absurd hwords h⟩
    · refine ⟨⟨fun _ => hwords, fun _ => ?_⟩, fun _ => ⟨?_, fun _ => hwords⟩⟩
      · rw [faithful_text_iff hnil hwords]
        refine ⟨rfl, ?_⟩
        intro _
        exact if_neg hwords
      · intro hgray
        exact nomatch hcolor.symm.trans hgray

end CommentState

open CommentState

/--
Nothing is typed while the placeholder stands in the view, and no edit makes the user's
text read like it.
-/
def KeptApart (s : CommentState) : CommentAction → Prop
  | .beginEditing => True
  | .endEditing => True
  | .append c => s.textColor = .black ∧ s.net ++ [c] ≠ commentPlaceholder.toList
  | .deleteLast => s.net.dropLast ≠ commentPlaceholder.toList

/-- Removing the placeholder, or putting it back, leaves a view in which nothing is written. -/
theorem faithful_blank {s s' : CommentState} (hf : s.Faithful) (hnet : s.net = [])
    (hblank : s'.text = [] ∨ s'.text = commentPlaceholder.toList)
    (hsame : s'.net = s.net ∧ s'.edited = s.edited ∧ s'.title = s.title) : s'.Faithful := by
  rw [faithful_blank_iff hblank, hsame.1, hsame.2.1, hsame.2.2]
  refine ⟨hnet, ?_⟩
  intro hedited htitle
  exact (hf.title hedited).mp htitle hnet

theorem faithful_beginEditing {s : CommentState} (hl : s.Legible) (hf : s.Faithful) :
    s.textViewDidBeginEditing.Faithful ∧ s.textViewDidBeginEditing.Legible := by
  unfold CommentState.textViewDidBeginEditing
  by_cases hgray : s.textColor = .lightGray
  · rw [if_pos hgray]
    have hnet := (hl.net_eq hf).1 hgray
    refine ⟨faithful_blank hf hnet (Or.inl rfl) ⟨rfl, rfl, rfl⟩, nofun, ?_⟩
    intro _
    show [] ≠ commentPlaceholder.toList
    decide
  · rw [if_neg hgray]
    exact ⟨hf, hl⟩

theorem faithful_endEditing {s : CommentState} (hl : s.Legible) (hf : s.Faithful) :
    s.textViewDidEndEditing.Faithful ∧ s.textViewDidEndEditing.Legible := by
  unfold CommentState.textViewDidEndEditing
  by_cases hempty : s.string.isEmpty = true
  · rw [if_pos hempty]
    have hnet := ((faithful_blank_iff (Or.inl (isEmpty_iff.mp hempty))).mp hf).1
    exact ⟨faithful_blank hf hnet (Or.inr rfl) ⟨rfl, rfl, rfl⟩, fun _ => rfl, nofun⟩
  · rw [if_neg hempty]
    exact ⟨hf, hl⟩

theorem faithful_step (s : CommentState) (a : CommentAction) (hl : s.Legible) (hf : s.Faithful) :
    ((commentStep s a).Faithful ↔ KeptApart s a) ∧
    (KeptApart s a → (commentStep s a).Legible) := by
  have hnet := hl.net_eq hf
  cases a with
  | beginEditing =>
      obtain ⟨hf', hl'⟩ := faithful_beginEditing hl hf
      exact ⟨⟨fun _ => trivial, fun _ => hf'⟩, fun _ => hl'⟩
  | endEditing =>
      obtain ⟨hf', hl'⟩ := faithful_endEditing hl hf
      exact ⟨⟨fun _ => trivial, fun _ => hf'⟩, fun _ => hl'⟩
  | append c =>
      simp only [commentStep, KeptApart]
      cases hcolor : s.textColor with
      | lightGray =>
          -- The character goes away with the placeholder.
          have hne : s.text ++ [c] ≠ [] := by simp
          rw [textViewDidChange_gray hne rfl, faithful_blank_iff (Or.inl rfl)]
          have hgray : ¬ (TextColor.lightGray = .black ∧
              s.net ++ [c] ≠ commentPlaceholder.toList) := by simp
          exact ⟨⟨fun h => absurd h.1 (by simp), fun h => absurd h hgray⟩,
            fun h => absurd h hgray⟩
      | black =>
          have hedited := faithful_edited (s.text ++ [c]) hcolor
          rw [hnet.2 hcolor]
          rw [hcolor] at hedited
          exact ⟨hedited.1.trans ⟨fun h => ⟨rfl, h⟩, fun h => h.2⟩, fun h => hedited.2 h.2⟩
  | deleteLast =>
      simp only [commentStep, KeptApart]
      cases hcolor : s.textColor with
      | lightGray =>
          have hne : s.text.dropLast ≠ [] := by
            rw [hl.gray hcolor]
            decide
          have hnone : s.net.dropLast = [] := by
            rw [hnet.1 hcolor]
            rfl
          have hwords : s.net.dropLast ≠ commentPlaceholder.toList := by
            rw [hnone]
            decide
          rw [textViewDidChange_gray hne rfl, faithful_blank_iff (Or.inl rfl)]
          refine ⟨⟨fun _ => hwords, fun _ => ⟨hnone, fun _ => ?_⟩⟩, fun _ => ⟨?_, fun _ => ?_⟩⟩
          · show "取消" ≠ "提交"
            decide
          · intro hblack
            cases hblack
          · show [] ≠ commentPlaceholder.toList
            decide
      | black =>
          have hedited := faithful_edited s.text.dropLast hcolor
          rw [hnet.2 hcolor]
          rw [hcolor] at hedited
          exact hedited

/--
The button posts what the user has written in every state of a run, exactly when nothing
is typed while the placeholder stands in the view and no edit makes the text read like it.
-/
theorem comment_as_typed_iff (as : List CommentAction) :
    Always commentStep Faithful openComment as ↔ Guarded commentStep KeptApart openComment as := by
  have hopen : openComment.Faithful :=
    (faithful_blank_iff (Or.inr rfl)).mpr ⟨rfl, fun h => nomatch h⟩
  exact always_iff_guarded_while (fun s a hl hf => (faithful_step s a hl hf).2)
    (fun s a hl hf => (faithful_step s a hl hf).1) as ⟨fun _ => rfl, nofun⟩ hopen

/-- A character is typed, deleted, and another typed, which is lost. -/
theorem keystroke_lost :
    ¬ Always commentStep Faithful openComment
      [.beginEditing, .append '好', .deleteLast, .append '棒'] := by
  intro h
  have htitle := (h.last.title rfl).mpr
  exact absurd (htitle (by decide)) (by decide)

end GoodThing

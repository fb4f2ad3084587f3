import Mathlib.Data.List.Infix

namespace McManager.Framework

/-- `text.startswith(start)`. -/
def startsWith (text start : String) : Bool := start.toList.isPrefixOf text.toList

/-- `text.endswith(tail)`. -/
def endsWith (text tail : String) : Bool := tail.toList.isSuffixOf text.toList

/-- `text.strip("/").split("/")`. -/
def pathSegments (text : String) : List String :=
  let stripped := ((text.toList.dropWhile (· == '/')).reverse.dropWhile (· == '/')).reverse
  (stripped.splitOn '/').map String.ofList

namespace UrlPath

/-- A segment of a path that can be told from its neighbours. -/
def Word (s : String) : Prop := s ≠ "" ∧ '/' ∉ s.toList

instance (s : String) : Decidable (Word s) :=
  inferInstanceAs (Decidable (s ≠ "" ∧ '/' ∉ s.toList))

def render : List String → List Char
  | [] => []
  | s :: rest => '/' :: s.toList ++ render rest

/-- The path of these segments. -/
def text (segments : List String) : String := String.ofList (render segments)

@[simp] theorem toList_text (segments : List String) : (text segments).toList = render segments := by
  rw [text, String.toList_ofList]

theorem render_append (segments rest : List String) :
    render (segments ++ rest) = render segments ++ render rest := by
  induction segments with
  | nil => rfl
  | cons s segments ih =>
    simp only [List.cons_append, render, ih, List.append_assoc]

/-- What follows a segment is nothing or starts with a slash. -/
theorem render_head (segments : List String) :
    render segments = [] ∨ ∃ rest, render segments = '/' :: rest := by
  cases segments with
  | nil => exact .inl rfl
  | cons s segments => exact .inr ⟨_, rfl⟩

/-- Behind the last slash a text can be read in one way only. -/
theorem last_inj {front front' : List Char} {s s' : List Char} (hs : '/' ∉ s) (hs' : '/' ∉ s')
    (h : front ++ '/' :: s = front' ++ '/' :: s') : front = front' ∧ s = s' := by
  have read : ∀ (front s : List Char), '/' ∉ s →
      ((front ++ '/' :: s).reverse.takeWhile (· != '/')) = s.reverse := by
    intro front s hs
    rw [List.reverse_append, List.reverse_cons, List.append_assoc, List.takeWhile_append_of_pos]
    · simp
    · intro c hc
      have hc := List.mem_reverse.mp hc
      simp only [bne_iff_ne, ne_eq]
      intro same
      exact hs (same ▸ hc)
  have same : s = s' := by
    have reversed := read front s hs
    rw [h, read front' s' hs'] at reversed
    exact (List.reverse_injective reversed).symm
  subst same
  exact ⟨List.append_cancel_right h, rfl⟩

/-- A path ends with some segments exactly when they are its last ones. -/
theorem render_suffix {tail segments : List String} (htail : ∀ s ∈ tail, '/' ∉ s.toList)
    (hsegments : ∀ s ∈ segments, '/' ∉ s.toList) :
    render tail <:+ render segments ↔ tail <:+ segments := by
  constructor
  · intro h
    induction tail using List.reverseRecOn generalizing segments with
    | nil => exact List.nil_suffix
    | append_singleton tail s ih =>
      obtain rfl | ⟨front, last, rfl⟩ := List.eq_nil_or_concat' segments
      · rw [render_append] at h
        have empty := List.suffix_nil.mp h
        cases (List.append_eq_nil_iff.mp empty).2
      · obtain ⟨before, h⟩ := h
        rw [render_append, render_append, ← List.append_assoc] at h
        simp only [render, List.append_nil] at h
        have cut := last_inj (htail s (by simp)) (hsegments last (by simp)) h
        have same : s = last := String.toList_inj.mp cut.2
        rw [same]
        have inner := ih (fun s hs => htail s (by simp [hs])) (fun s hs => hsegments s (by simp [hs]))
          ⟨before, cut.1⟩
        obtain ⟨rest, rfl⟩ := inner
        exact ⟨rest, by rw [List.append_assoc]⟩
  · intro h
    obtain ⟨front, rfl⟩ := h
    rw [render_append]
    exact List.suffix_append _ _

theorem text_inj {segments segments' : List String} (h : ∀ s ∈ segments, '/' ∉ s.toList)
    (h' : ∀ s ∈ segments', '/' ∉ s.toList) : text segments = text segments' ↔ segments = segments' := by
  constructor
  · intro same
    have same : render segments = render segments' := String.ofList_injective same
    have left : segments <:+ segments' := (render_suffix h h').mp (same ▸ List.suffix_refl _)
    have right : segments' <:+ segments := (render_suffix h' h).mp (same ▸ List.suffix_refl _)
    exact left.eq_of_length_le right.length_le
  · exact congrArg text

/-- What starts with a slash goes on behind a segment only when that segment is complete. -/
theorem prefix_segment {s s' : List Char} (hs : '/' ∉ s) (hs' : '/' ∉ s') {front : List Char}
    {rest : List String} :
    s ++ '/' :: front <+: s' ++ render rest ↔ s = s' ∧ '/' :: front <+: render rest := by
  induction s generalizing s' with
  | nil =>
    cases s' with
    | nil => simp
    | cons c s' =>
      have other : '/' ≠ c := fun same => hs' (same ▸ List.mem_cons_self ..)
      simp [List.cons_prefix_cons, other]
  | cons c s ih =>
    cases s' with
    | nil =>
      have other : c ≠ '/' := fun same => hs (same ▸ List.mem_cons_self ..)
      obtain none' | ⟨more, head⟩ := render_head rest
      · simp [none']
      · simp [head, List.cons_prefix_cons, other]
    | cons c' s' =>
      have clear : '/' ∉ s' := fun h => hs' (List.mem_cons_of_mem c' h)
      have step := ih (fun h => hs (List.mem_cons_of_mem c h)) clear
      simp only [List.cons_append, List.cons_prefix_cons, step, List.cons.injEq]
      tauto

/-- A path starts with a directory exactly when it leads below it. -/
theorem render_prefix {dir segments : List String} (hdir : ∀ s ∈ dir, '/' ∉ s.toList)
    (hsegments : ∀ s ∈ segments, '/' ∉ s.toList) :
    render dir ++ ['/'] <+: render segments ↔ ∃ s rest, segments = dir ++ s :: rest := by
  induction dir generalizing segments with
  | nil =>
    cases segments with
    | nil => simp [render]
    | cons s rest => simp [render]
  | cons d dir ih =>
    cases segments with
    | nil => simp [render]
    | cons s rest =>
      have behind : ∃ front, render dir ++ ['/'] = '/' :: front := by
        obtain none' | ⟨more, head⟩ := render_head dir
        · exact ⟨[], by rw [none']; rfl⟩
        · exact ⟨more ++ ['/'], by rw [head]; rfl⟩
      obtain ⟨front, hfront⟩ := behind
      have below : ∀ s' ∈ rest, '/' ∉ s'.toList :=
        fun s' hs => hsegments s' (List.mem_cons_of_mem s hs)
      have inner := ih (fun s hs => hdir s (List.mem_cons_of_mem d hs)) below
      rw [hfront] at inner
      have cut : d.toList ++ '/' :: front <+: s.toList ++ render rest ↔
          d.toList = s.toList ∧ '/' :: front <+: render rest :=
        prefix_segment (hdir d (List.mem_cons_self ..)) (hsegments s (List.mem_cons_self ..))
      simp only [render, List.cons_append, List.append_assoc, List.cons_prefix_cons, true_and,
        hfront, cut, inner]
      constructor
      · intro h
        obtain ⟨same, s', rest', rfl⟩ := h
        exact ⟨s', rest', by rw [String.toList_inj.mp same]⟩
      · intro h
        obtain ⟨s', rest', same⟩ := h
        simp only [List.cons.injEq] at same
        exact ⟨congrArg _ same.1.symm, s', rest', same.2⟩

/-- Below a first segment, a path starts with some characters exactly when its second segment
does. -/
theorem second_prefix {first second : String} {start : List Char} (hstart : '/' ∉ start)
    (rest : List String) :
    '/' :: first.toList ++ '/' :: start <+: render (first :: second :: rest) ↔
      start <+: second.toList := by
  simp only [render, List.cons_append, List.cons_prefix_cons, true_and]
  rw [List.prefix_append_right_inj]
  simp only [List.cons_prefix_cons, true_and]
  constructor
  · intro h
    obtain within | beyond := List.prefix_or_prefix_of_prefix h (List.prefix_append _ _)
    · exact within
    · obtain ⟨more, rfl⟩ := beyond
      rw [List.prefix_append_right_inj] at h
      obtain none' | ⟨more', head⟩ := render_head rest
      · rw [none', List.prefix_nil] at h
        rw [h, List.append_nil]
      · cases more with
        | nil => rw [List.append_nil]
        | cons c more =>
          rw [head, List.cons_prefix_cons] at h
          exact absurd (h.1 ▸ List.mem_append_right _ (List.mem_cons_self ..)) hstart
  · exact fun h => h.trans (List.prefix_append _ _)

theorem splitOn_render {s : String} {rest : List String} (h : ∀ t ∈ s :: rest, '/' ∉ t.toList) :
    (s.toList ++ render rest).splitOn '/' = (s :: rest).map String.toList := by
  induction rest generalizing s with
  | nil =>
    rw [render, List.append_nil]
    exact List.splitOn_eq_singleton (h s (List.mem_cons_self ..))
  | cons t rest ih =>
    rw [render, List.cons_append,
      List.splitOn_append_cons_self_of_not_mem (h s (List.mem_cons_self ..)),
      ih fun u hu => h u (List.mem_cons_of_mem s hu)]
    rfl

theorem dropWhile_word {word : List Char} (nonempty : word ≠ []) (h : '/' ∉ word)
    (rest : List Char) : (word ++ rest).dropWhile (· == '/') = word ++ rest := by
  obtain ⟨c, more, rfl⟩ := List.exists_cons_of_ne_nil nonempty
  have other : (c == '/') = false := by
    apply beq_false_of_ne
    exact fun same => h (same ▸ List.mem_cons_self ..)
  rw [List.cons_append, List.dropWhile_cons_of_neg (by simp [other])]

theorem Word.toList_ne_nil {s : String} (h : Word s) : s.toList ≠ [] :=
  fun none' => h.1 (String.toList_eq_nil_iff.mp none')

/-- A path ends with its last segment. -/
theorem render_last {first : String} {rest : List String} :
    ∃ front, ∃ last ∈ first :: rest, first.toList ++ render rest = front ++ last.toList := by
  obtain rfl | ⟨init, last, rfl⟩ := List.eq_nil_or_concat' rest
  · exact ⟨[], first, List.mem_cons_self .., by rw [render, List.append_nil, List.nil_append]⟩
  · refine ⟨first.toList ++ render init ++ ['/'], last, by simp, ?_⟩
    rw [render_append]
    simp only [render, List.append_nil, List.append_assoc, List.singleton_append]

theorem pathSegments_text {segments : List String} (nonempty : segments ≠ [])
    (h : ∀ s ∈ segments, Word s) : pathSegments (text segments) = segments := by
  obtain ⟨first, rest, rfl⟩ := List.exists_cons_of_ne_nil nonempty
  have front : (render (first :: rest)).dropWhile (· == '/') = first.toList ++ render rest := by
    rw [render, List.cons_append, List.dropWhile_cons_of_pos (by rfl)]
    have word := h first (List.mem_cons_self ..)
    exact dropWhile_word word.toList_ne_nil word.2 _
  have back : (first.toList ++ render rest).reverse.dropWhile (· == '/') =
      (first.toList ++ render rest).reverse := by
    obtain ⟨before, last, hlast, ends⟩ := @render_last first rest
    have word := h last hlast
    rw [ends, List.reverse_append]
    apply dropWhile_word
    · exact fun none' => word.toList_ne_nil (List.reverse_eq_nil_iff.mp none')
    · exact fun slash => word.2 (List.mem_reverse.mp slash)
  simp only [pathSegments, toList_text]
  rw [front, back, List.reverse_reverse, splitOn_render fun s hs => (h s hs).2, List.map_map]
  simp [Function.comp_def]

end UrlPath

end McManager.Framework

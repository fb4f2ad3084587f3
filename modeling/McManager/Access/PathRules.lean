import McManager.Access.Routes

namespace McManager.Access

open Framework UrlPath

section Paths

variable {x : String} {rest : List String} {lit : String}

theorem endsWith_text {tail segments : List String} (h : ∀ s ∈ segments, Word s)
    (htail : ∀ s ∈ tail, '/' ∉ s.toList) (hlit : lit.toList = render tail) :
    endsWith (text segments) lit = tail.isSuffixOf segments := by
  rw [Bool.eq_iff_iff, endsWith, List.isSuffixOf_iff_suffix, List.isSuffixOf_iff_suffix,
    toList_text, hlit]
  exact render_suffix htail fun s hs => (h s hs).2

theorem beq_text {exact segments : List String} (h : ∀ s ∈ segments, Word s)
    (hexact : ∀ s ∈ exact, '/' ∉ s.toList) (hlit : lit = text exact) :
    (text segments == lit) = (segments == exact) := by
  rw [Bool.eq_iff_iff, beq_iff_eq, beq_iff_eq, hlit]
  exact text_inj (fun s hs => (h s hs).2) hexact

theorem startsWith_below {d : String} (h : ∀ s ∈ "api" :: x :: rest, Word s)
    (hd : '/' ∉ d.toList) (hlit : lit.toList = render ["api", d] ++ ['/']) :
    startsWith (text ("api" :: x :: rest)) lit = (x == d && !rest.isEmpty) := by
  rw [Bool.eq_iff_iff, startsWith, List.isPrefixOf_iff_prefix, toList_text, hlit,
    render_prefix (by simp [hd]) fun s hs => (h s hs).2]
  cases rest with
  | nil => simp
  | cons v rest => simp

theorem startsWith_named {d : String} (hd : '/' ∉ d.toList)
    (hlit : lit.toList = '/' :: "api".toList ++ '/' :: d.toList) :
    startsWith (text ("api" :: x :: rest)) lit = d.toList.isPrefixOf x.toList := by
  rw [Bool.eq_iff_iff, startsWith, List.isPrefixOf_iff_prefix, List.isPrefixOf_iff_prefix,
    toList_text, hlit]
  exact second_prefix hd rest

/-- `_requires_admin`, for a path given by its segments: `api`, the second one and the others. -/
def adminOf (m : Method) (x : String) (rest : List String) : Bool :=
  let segments := "api" :: x :: rest
  let below := fun d => x == d && !rest.isEmpty
  let ends := fun tail => List.isSuffixOf tail segments
  segments == ["api", "diagnostics"] || segments == ["api", "settings"] ||
    (below "worlds" && ends ["settings"]) || below "supervisor" || ends ["stop"] ||
    ends ["kill"] || ends ["eula", "accept"] || ends ["runtime-config"] ||
    (below "worlds" && decide (4 ≤ segments.length) && segments[3]? == some "files") ||
    (below "worlds" && decide (5 ≤ segments.length) && segments[3]? == some "logs") ||
    ends ["delete-preview"] ||
    (m.stateChanging &&
      ("schedules".toList.isPrefixOf x.toList || "templates".toList.isPrefixOf x.toList ||
        "java-runtimes".toList.isPrefixOf x.toList ||
        [["api", "manager", "backup"], ["api", "manager", "restore"],
          ["api", "manager", "restart"], ["api", "manager", "update"],
          ["api", "manager", "rollback"]].contains segments)) ||
    (m.stateChanging && below "worlds" && !ends ["start"])

/-- `_requires_step_up`; `renames` says that the body has a user name. -/
def stepUpOf (m : Method) (x : String) (rest : List String) (renames : Bool) : Bool :=
  let segments := "api" :: x :: rest
  let below := fun d => x == d && !rest.isEmpty
  let ends := fun tail => List.isSuffixOf tail segments
  m.stateChanging &&
    (ends ["stop"] || ends ["kill"] || ends ["eula", "accept"] || ends ["runtime-config"] ||
      (m == .delete && below "worlds" && segments.length == 3) ||
      (m == .delete && below "worlds" && segments.length == 4 && segments[3]? == some "files") ||
      segments == ["api", "manager", "restore"] ||
      [["api", "manager", "update"], ["api", "manager", "rollback"]].contains segments ||
      (m == .patch && below "users" && renames))

/-- `_requires_superadmin`. -/
def superadminOf (m : Method) (x : String) (rest : List String) : Bool :=
  let segments := "api" :: x :: rest
  (segments == ["api", "setup"] && m == .post) ||
    ["users", "roles", "permissions", "devices"].any (fun d => d.toList.isPrefixOf x.toList) ||
    [["api", "manager", "update"], ["api", "manager", "rollback"]].contains segments

/-- `_is_public_request`. -/
def publicOf (m : Method) (x : String) (rest : List String) : Bool :=
  let segments := "api" :: x :: rest
  segments == ["api", "health"] || segments == ["api", "auth", "login"] || m == .options

/-- What the tests of the middleware read of a path. -/
structure Tested (path : String) (x : String) (rest : List String) : Prop where
  split : pathSegments path = "api" :: x :: rest
  ends : ∀ (lit : String) (tail : List String), (∀ s ∈ tail, '/' ∉ s.toList) →
    lit.toList = render tail → endsWith path lit = tail.isSuffixOf ("api" :: x :: rest)
  below : ∀ lit d : String, '/' ∉ d.toList → lit.toList = render ["api", d] ++ ['/'] →
    startsWith path lit = (x == d && !rest.isEmpty)
  named : ∀ lit d : String, '/' ∉ d.toList → lit.toList = '/' :: "api".toList ++ '/' :: d.toList →
    startsWith path lit = d.toList.isPrefixOf x.toList
  equal : ∀ (lit : String) (exact : List String), (∀ s ∈ exact, '/' ∉ s.toList) →
    lit = text exact → (path == lit) = (("api" :: x :: rest) == exact)
  inside : ∀ lit d : String, '/' ∉ d.toList → lit.toList = render [d] ++ ['/'] →
    startsWith path lit = (d == "api")

theorem tested (h : ∀ s ∈ "api" :: x :: rest, Word s) :
    Tested (text ("api" :: x :: rest)) x rest where
  split := pathSegments_text (by simp) h
  ends := fun _ _ htail hlit => endsWith_text h htail hlit
  below := fun _ _ hd hlit => startsWith_below h hd hlit
  named := fun _ _ hd hlit => startsWith_named hd hlit
  equal := fun _ _ hexact hlit => beq_text h hexact hlit
  inside := by
    intro lit d hd hlit
    rw [Bool.eq_iff_iff, startsWith, List.isPrefixOf_iff_prefix, toList_text, hlit,
      render_prefix (by simpa using hd) fun s hs => (h s hs).2, beq_iff_eq]
    constructor
    · intro h
      obtain ⟨s, rest', same⟩ := h
      exact (List.cons.inj same).1.symm
    · exact fun same => ⟨x, rest, by rw [same]; rfl⟩

variable {req : HttpRequest} (t : Tested req.path x rest)

include t

theorem requiresAdmin_text : req.requiresAdmin = adminOf req.method x rest := by
  simp only [HttpRequest.requiresAdmin, adminOf, List.contains_cons, List.contains_nil, t.split,
    t.below "/api/worlds/" "worlds" (by decide) (by decide),
    t.below "/api/supervisor/" "supervisor" (by decide) (by decide),
    t.ends "/settings" ["settings"] (by decide) (by decide),
    t.ends "/stop" ["stop"] (by decide) (by decide),
    t.ends "/kill" ["kill"] (by decide) (by decide),
    t.ends "/eula/accept" ["eula", "accept"] (by decide) (by decide),
    t.ends "/runtime-config" ["runtime-config"] (by decide) (by decide),
    t.ends "/delete-preview" ["delete-preview"] (by decide) (by decide),
    t.ends "/start" ["start"] (by decide) (by decide),
    t.named "/api/schedules" "schedules" (by decide) (by decide),
    t.named "/api/templates" "templates" (by decide) (by decide),
    t.named "/api/java-runtimes" "java-runtimes" (by decide) (by decide),
    t.equal "/api/diagnostics" ["api", "diagnostics"] (by decide) (by decide),
    t.equal "/api/settings" ["api", "settings"] (by decide) (by decide),
    t.equal "/api/manager/backup" ["api", "manager", "backup"] (by decide) (by decide),
    t.equal "/api/manager/restore" ["api", "manager", "restore"] (by decide) (by decide),
    t.equal "/api/manager/restart" ["api", "manager", "restart"] (by decide) (by decide),
    t.equal "/api/manager/update" ["api", "manager", "update"] (by decide) (by decide),
    t.equal "/api/manager/rollback" ["api", "manager", "rollback"] (by decide) (by decide)]

theorem requiresStepUp_text : req.requiresStepUp = stepUpOf req.method x rest
    (req.body.any fun body => (body.lookup "username").isSome) := by
  simp only [HttpRequest.requiresStepUp, stepUpOf, List.contains_cons, List.contains_nil, t.split,
    t.below "/api/worlds/" "worlds" (by decide) (by decide),
    t.below "/api/users/" "users" (by decide) (by decide),
    t.ends "/stop" ["stop"] (by decide) (by decide),
    t.ends "/kill" ["kill"] (by decide) (by decide),
    t.ends "/eula/accept" ["eula", "accept"] (by decide) (by decide),
    t.ends "/runtime-config" ["runtime-config"] (by decide) (by decide),
    t.equal "/api/manager/restore" ["api", "manager", "restore"] (by decide) (by decide),
    t.equal "/api/manager/update" ["api", "manager", "update"] (by decide) (by decide),
    t.equal "/api/manager/rollback" ["api", "manager", "rollback"] (by decide) (by decide)]

theorem requiresSuperadmin_text : req.requiresSuperadmin = superadminOf req.method x rest := by
  simp only [HttpRequest.requiresSuperadmin, superadminOf, List.contains_cons, List.contains_nil,
    List.any_cons, List.any_nil,
    t.named "/api/users" "users" (by decide) (by decide),
    t.named "/api/roles" "roles" (by decide) (by decide),
    t.named "/api/permissions" "permissions" (by decide) (by decide),
    t.named "/api/devices" "devices" (by decide) (by decide),
    t.equal "/api/setup" ["api", "setup"] (by decide) (by decide),
    t.equal "/api/manager/update" ["api", "manager", "update"] (by decide) (by decide),
    t.equal "/api/manager/rollback" ["api", "manager", "rollback"] (by decide) (by decide)]

theorem isPublicRequest_text : req.isPublicRequest = publicOf req.method x rest := by
  simp only [HttpRequest.isPublicRequest, publicOf,
    t.inside "/pages/" "pages" (by decide) (by decide),
    t.inside "/static/" "static" (by decide) (by decide),
    t.equal "/" [""] (by decide) (by decide),
    t.equal "/api/health" ["api", "health"] (by decide) (by decide),
    t.equal "/api/auth/login" ["api", "auth", "login"] (by decide) (by decide)]
  simp

end Paths

/-- The words that the middleware looks for at the end of a path. -/
def endWords : List String := ["start", "stop", "kill", "runtime-config", "delete-preview"]

section Families

variable {m : Method} {x v w l : String} {more : List String}

theorem ends_item {word a x v : String} : List.isSuffixOf [word] [a, x, v] = (word == v) := by
  simp [List.isSuffixOf, List.isPrefixOf]

theorem ends_pair {u word a x v : String} :
    List.isSuffixOf [u, word] [a, x, v] = (u == x && word == v) := by
  simp [List.isSuffixOf, List.isPrefixOf, Bool.and_comm]

/-- What is in front of enough segments does not matter at the end. -/
theorem ends_inner {tail rest : List String} (front : List String)
    (short : tail.length ≤ rest.length) :
    List.isSuffixOf tail (front ++ rest) = List.isSuffixOf tail rest := by
  rw [Bool.eq_iff_iff, List.isSuffixOf_iff_suffix, List.isSuffixOf_iff_suffix]
  constructor
  · exact fun h => List.suffix_of_suffix_length_le h (List.suffix_append _ _) short
  · exact fun h => h.trans (List.suffix_append _ _)

/-- Rules that end in their parameter. -/
theorem adminOf_item (hm : m.stateChanging = true) (hx : x ≠ "manager" ∧ x ≠ "eula") :
    adminOf m x [v] = (["stop", "kill", "runtime-config", "delete-preview"].contains v ||
      x == "supervisor" || "schedules".toList.isPrefixOf x.toList ||
      "templates".toList.isPrefixOf x.toList || "java-runtimes".toList.isPrefixOf x.toList ||
      (x == "worlds" && v != "start")) := by
  have eula : ("eula" == x) = false := beq_false_of_ne hx.2.symm
  have manager : (x == "manager") = false := beq_false_of_ne hx.1
  simp only [adminOf, ends_item, ends_pair, hm, eula, List.contains_cons, List.contains_nil]
  generalize "schedules".toList.isPrefixOf x.toList = a
  generalize "templates".toList.isPrefixOf x.toList = b
  generalize "java-runtimes".toList.isPrefixOf x.toList = c
  rw [Bool.eq_iff_iff]
  by_cases settings : v = "settings"
  · subst settings
    simp [manager]
    grind
  · have other : ("settings" == v) = false := beq_false_of_ne (Ne.symm settings)
    simp [manager, other, @eq_comm _ _ v]
    grind

theorem stepUpOf_item {renames : Bool} (hm : m.stateChanging = true)
    (hx : x ≠ "manager" ∧ x ≠ "eula") : stepUpOf m x [v] renames =
      (["stop", "kill", "runtime-config"].contains v || (m == .delete && x == "worlds") ||
        (m == .patch && x == "users" && renames)) := by
  have eula : ("eula" == x) = false := beq_false_of_ne hx.2.symm
  have manager : (x == "manager") = false := beq_false_of_ne hx.1
  simp only [stepUpOf, ends_item, ends_pair, hm, eula, List.contains_cons, List.contains_nil]
  rw [Bool.eq_iff_iff]
  simp [manager, @eq_comm _ _ v]
  grind

theorem superadminOf_item (hx : x ≠ "manager") : superadminOf m x [v] =
    ["users", "roles", "permissions", "devices"].any (fun d => d.toList.isPrefixOf x.toList) := by
  simp [superadminOf, hx]

theorem plain_admin (hv : v ∉ endWords) :
    ["stop", "kill", "runtime-config", "delete-preview"].contains v = false ∧
      (v != "start") = true := by
  simp only [endWords, List.mem_cons, List.not_mem_nil, or_false, not_or] at hv
  simp [hv]

theorem plain_stepUp (hv : v ∉ endWords) :
    ["stop", "kill", "runtime-config"].contains v = false := by
  simp only [endWords, List.mem_cons, List.not_mem_nil, or_false, not_or] at hv
  simp [hv]

theorem adminOf_item_same (hm : m.stateChanging = true) (hx : x ≠ "manager" ∧ x ≠ "eula")
    (hv : v ∉ endWords) (hw : w ∉ endWords) : adminOf m x [v] = adminOf m x [w] := by
  rw [adminOf_item hm hx, adminOf_item hm hx, (plain_admin hv).1, (plain_admin hw).1,
    (plain_admin hv).2, (plain_admin hw).2]

theorem adminOf_item_mono (hm : m.stateChanging = true) (hx : x ≠ "manager" ∧ x ≠ "eula")
    (hw : w ∉ endWords) (ruled : adminOf m x [w] = true) (apart : x = "worlds" → v ≠ "start") :
    adminOf m x [v] = true := by
  rw [adminOf_item hm hx] at ruled ⊢
  by_cases world : x = "worlds"
  · have start : (v != "start") = true := bne_iff_ne.mpr (apart world)
    rw [world, start, beq_self_eq_true, Bool.and_true, Bool.or_true]
  · rw [(plain_admin hw).1, beq_false_of_ne world, Bool.false_and, Bool.or_false] at ruled
    rw [beq_false_of_ne world, Bool.false_and, Bool.or_false]
    simp only [Bool.or_assoc, Bool.false_or] at ruled ⊢
    rw [ruled, Bool.or_true]

theorem stepUpOf_item_same {renames : Bool} (hm : m.stateChanging = true)
    (hx : x ≠ "manager" ∧ x ≠ "eula") (hv : v ∉ endWords) (hw : w ∉ endWords) :
    stepUpOf m x [v] renames = stepUpOf m x [w] renames := by
  rw [stepUpOf_item hm hx, stepUpOf_item hm hx, plain_stepUp hv, plain_stepUp hw]

theorem stepUpOf_item_mono {renames : Bool} (hm : m.stateChanging = true)
    (hx : x ≠ "manager" ∧ x ≠ "eula") (hw : w ∉ endWords)
    (ruled : stepUpOf m x [w] renames = true) : stepUpOf m x [v] renames = true := by
  rw [stepUpOf_item hm hx] at ruled ⊢
  rw [plain_stepUp hw] at ruled
  simp only [Bool.or_assoc, Bool.false_or] at ruled ⊢
  rw [ruled, Bool.or_true]

/-- Rules that go on behind their parameter. -/
theorem ends_behind (word a : String) :
    List.isSuffixOf [word] ("api" :: x :: a :: l :: more) = List.isSuffixOf [word] (l :: more) :=
  ends_inner ["api", x, a] (by simp)

theorem accept_behind (hl : l ≠ "accept" ∨ more ≠ []) (a : String) :
    List.isSuffixOf ["eula", "accept"] ("api" :: x :: a :: l :: more) =
      List.isSuffixOf ["eula", "accept"] (l :: more) := by
  cases more with
  | nil =>
    have other : ("accept" == l) = false := beq_false_of_ne (hl.resolve_right (by simp)).symm
    simp [List.isSuffixOf, List.isPrefixOf, other]
  | cons b more => exact ends_inner ["api", x, a] (by simp)

theorem adminOf_inner (hl : l ≠ "accept" ∨ more ≠ []) :
    adminOf m x (v :: l :: more) = adminOf m x (w :: l :: more) := by
  simp [adminOf, ends_behind, accept_behind hl]

theorem stepUpOf_inner {renames : Bool} (hl : l ≠ "accept" ∨ more ≠ []) :
    stepUpOf m x (v :: l :: more) renames = stepUpOf m x (w :: l :: more) renames := by
  simp [stepUpOf, ends_behind, accept_behind hl]

theorem superadminOf_inner :
    superadminOf m x (v :: l :: more) = superadminOf m x (w :: l :: more) := by
  simp [superadminOf]

theorem superadminOf_worlds {rest : List String} : superadminOf m "worlds" rest = false := by
  simp [superadminOf, List.isPrefixOf]

theorem adminOf_logs {c : String} : adminOf m "worlds" (v :: "logs" :: c :: more) = true := by
  simp [adminOf]

theorem stepUpOf_still {rest : List String} {renames : Bool} (hm : m.stateChanging = false) :
    stepUpOf m x rest renames = false := by
  rw [stepUpOf, hm, Bool.false_and]

end Families

/-- What the rules of the marked handlers look like. -/
inductive Shape (h : Handler) : Prop
  | fixed (none' : h.params = 0)
  | item (x name : String) (parts : h.route.2 = [.text x, .param name])
    (changes : h.route.1.stateChanging = true) (other : x ≠ "manager" ∧ x ≠ "eula")
  | inner (x name l : String) (more : List Part)
    (parts : h.route.2 = .text x :: .param name :: .text l :: more)
    (none' : more.countP Part.isParam = 0) (other : l ≠ "accept")
  | logs (name : String) (c : Part) (more : List Part)
    (parts : h.route.2 = .text "worlds" :: .param name :: .text "logs" :: c :: more)
    (get : h.route.1 = .get)

theorem shape (h : Handler) : Shape h := by
  cases h
  all_goals first
    | exact .fixed rfl
    | exact .item _ _ rfl rfl (by decide)
    | exact .logs _ _ _ rfl rfl
    | exact .inner _ _ _ _ rfl rfl (by decide)

theorem fill_fixed {parts : List Part} (none' : parts.countP Part.isParam = 0)
    (values : List String) : Part.fill parts values = Part.fill parts [] := by
  induction parts with
  | nil => rfl
  | cons p parts ih =>
    cases p with
    | text s =>
      rw [Part.fill, Part.fill]
      exact congrArg (s :: ·) (ih (by simpa [Part.isParam] using none'))
    | param name => simp [Part.isParam] at none'

theorem fill_cons (p : Part) (parts : List Part) (values : List String) :
    ∃ s rest, Part.fill (p :: parts) values = s :: rest := by
  cases p with
  | text s => exact ⟨_, _, rfl⟩
  | param name =>
    cases values with
    | nil => exact ⟨_, _, rfl⟩
    | cons v values => exact ⟨_, _, rfl⟩

theorem length_fill (parts : List Part) (values : List String) :
    (Part.fill parts values).length = parts.length := by
  induction parts generalizing values with
  | nil => rfl
  | cons p parts ih =>
    cases p with
    | text s => simp only [Part.fill, List.length_cons, ih]
    | param name =>
      cases values with
      | nil => simp only [Part.fill, List.length_cons, ih]
      | cons v values => simp only [Part.fill, List.length_cons, ih]

theorem words_fill {parts : List Part} (values : List String) (hvalues : ∀ v ∈ values, Word v)
    (hparts : ∀ s ∈ Part.fill parts [], Word s) : ∀ s ∈ Part.fill parts values, Word s := by
  induction parts generalizing values with
  | nil => exact fun _ h => (nomatch h)
  | cons p parts ih =>
    cases p with
    | text t =>
      simp only [Part.fill, List.mem_cons, forall_eq_or_imp] at hparts ⊢
      exact ⟨hparts.1, ih values hvalues hparts.2⟩
    | param name =>
      simp only [Part.fill, List.mem_cons, forall_eq_or_imp] at hparts
      cases values with
      | nil =>
        simp only [Part.fill, List.mem_cons, forall_eq_or_imp]
        exact ⟨hparts.1, ih [] hvalues hparts.2⟩
      | cons v values =>
        simp only [Part.fill, List.mem_cons, forall_eq_or_imp]
        exact ⟨hvalues v (List.mem_cons_self ..),
          ih values (fun u hu => hvalues u (List.mem_cons_of_mem v hu)) hparts.2⟩

theorem words_segments (h : Handler) {values : List String} (hvalues : ∀ v ∈ values, Word v) :
    ∀ s ∈ h.segments values, Word s := by
  have rule : ∀ s ∈ Part.fill h.route.2 [], Word s := by
    cases h <;> decide
  simp only [Handler.segments, List.mem_cons, forall_eq_or_imp]
  exact ⟨by decide, words_fill values hvalues rule⟩

/-- The parameter at the end of a state-changing path is one of the words the middleware looks
for there. -/
def Handler.endsInWord (h : Handler) (values : List String) : Prop :=
  h.route.1.stateChanging = true ∧ (∃ name, h.route.2.getLast? = some (.param name)) ∧
    ∃ v ∈ endWords, values.getLast? = some v

/-- A world whose id is `start`. -/
def Handler.namesStart (h : Handler) (values : List String) : Prop :=
  (h = .updateWorld ∨ h = .deleteWorld) ∧ values = ["start"]

/-- The path of a request compared with its rule. -/
structure Compared (h : Handler) (values : List String) (m : Method) (x : String)
    (rest rule : List String) : Prop where
  segments : h.segments values = "api" :: x :: rest
  ruled : h.segments [] = "api" :: x :: rule
  length : rest.length = rule.length
  superadmin : superadminOf m x rest = superadminOf m x rule
  admin : adminOf m x rule = true → ¬h.namesStart values → adminOf m x rest = true
  stepUp : ∀ renames, stepUpOf m x rule renames = true → stepUpOf m x rest renames = true
  same : ¬h.endsInWord values →
    adminOf m x rest = adminOf m x rule ∧ stepUpOf m x rest = stepUpOf m x rule

theorem name_plain (name : String) : "<" ++ name ++ ">" ∉ endWords := by
  intro mem
  have words : ∀ w ∈ endWords, w.toList.head? ≠ some '<' := by decide
  exact words _ mem (by simp)

theorem accepts_changing {h : Handler} {m : Method} (accepted : h.accepts m = true)
    (changes : h.route.1.stateChanging = true) : m.stateChanging = true := by
  simp only [Handler.accepts, Bool.or_eq_true, Bool.and_eq_true, beq_iff_eq] at accepted
  obtain rfl | ⟨get, -⟩ := accepted
  · exact changes
  · rw [get] at changes
    cases changes

theorem accepts_get {h : Handler} {m : Method} (accepted : h.accepts m = true)
    (get : h.route.1 = .get) : m.stateChanging = false := by
  simp only [Handler.accepts, Bool.or_eq_true, Bool.and_eq_true, beq_iff_eq] at accepted
  obtain rfl | ⟨-, rfl⟩ := accepted
  · rw [get]
    rfl
  · rfl

theorem worlds_item {h : Handler} {name : String}
    (parts : h.route.2 = [.text "worlds", .param name]) : h = .updateWorld ∨ h = .deleteWorld := by
  cases h
  case updateWorld => exact .inl rfl
  case deleteWorld => exact .inr rfl
  all_goals simp [Handler.route] at parts

theorem compared_item {h : Handler} {values : List String} {m : Method} {x name : String}
    (accepted : h.accepts m = true) (count : values.length = h.params)
    (parts : h.route.2 = [.text x, .param name]) (changes : h.route.1.stateChanging = true)
    (other : x ≠ "manager" ∧ x ≠ "eula") : ∃ rest rule, Compared h values m x rest rule := by
  rw [Handler.params, parts] at count
  obtain ⟨v, rfl⟩ := List.length_eq_one_iff.mp count
  have sc := accepts_changing accepted changes
  have plain := name_plain name
  refine ⟨[v], ["<" ++ name ++ ">"], ?_, ?_, rfl, ?_, ?_, ?_, ?_⟩
  · rw [Handler.segments, parts]
    rfl
  · rw [Handler.segments, parts]
    rfl
  · rw [superadminOf_item other.1, superadminOf_item other.1]
  · intro ruled apart
    apply adminOf_item_mono sc other plain ruled
    intro world start
    subst world start
    exact apart ⟨worlds_item parts, rfl⟩
  · exact fun _ ruled => stepUpOf_item_mono sc other plain ruled
  · intro ordinary
    have hv : v ∉ endWords := by
      intro mem
      exact ordinary ⟨changes, ⟨name, by rw [parts]; rfl⟩, v, mem, rfl⟩
    exact ⟨adminOf_item_same sc other hv plain,
      funext fun _ => stepUpOf_item_same sc other hv plain⟩

theorem compared_inner {h : Handler} {values : List String} {m : Method} {x name l : String}
    {more : List Part} (count : values.length = h.params)
    (parts : h.route.2 = .text x :: .param name :: .text l :: more)
    (none' : more.countP Part.isParam = 0) (other : l ≠ "accept") :
    ∃ rest rule, Compared h values m x rest rule := by
  rw [Handler.params, parts, List.countP_cons, List.countP_cons, List.countP_cons, none'] at count
  obtain ⟨v, rfl⟩ := List.length_eq_one_iff.mp count
  refine ⟨v :: l :: Part.fill more [], ("<" ++ name ++ ">") :: l :: Part.fill more [], ?_, ?_, rfl,
    superadminOf_inner, ?_, ?_, ?_⟩
  · rw [Handler.segments, parts]
    rfl
  · rw [Handler.segments, parts]
    rfl
  · intro ruled _
    rw [adminOf_inner (.inl other)]
    exact ruled
  · intro renames ruled
    rw [stepUpOf_inner (.inl other)]
    exact ruled
  · exact fun _ => ⟨adminOf_inner (.inl other), funext fun _ => stepUpOf_inner (.inl other)⟩

theorem compared_logs {h : Handler} {values : List String} {m : Method} {name : String} {c : Part}
    {more : List Part} (accepted : h.accepts m = true) (count : values.length = h.params)
    (parts : h.route.2 = .text "worlds" :: .param name :: .text "logs" :: c :: more)
    (get : h.route.1 = .get) : ∃ rest rule, Compared h values m "worlds" rest rule := by
  have still := accepts_get accepted get
  rw [Handler.params, parts, List.countP_cons, List.countP_cons] at count
  obtain ⟨v, values, rfl⟩ := List.exists_cons_of_ne_nil
    (List.length_pos_iff.mp (Nat.lt_of_lt_of_eq (by simp [Part.isParam]) count.symm))
  obtain ⟨c', more', filled⟩ := fill_cons c more values
  obtain ⟨c₀, more₀, rule⟩ := fill_cons c more []
  have length : (c' :: more').length = (c₀ :: more₀).length := by
    rw [← filled, ← rule, length_fill, length_fill]
  refine ⟨v :: "logs" :: c' :: more', ("<" ++ name ++ ">") :: "logs" :: c₀ :: more₀, ?_, ?_,
    congrArg (· + 2) length, ?_, ?_, ?_, ?_⟩
  · rw [Handler.segments, parts, ← filled]
    rfl
  · rw [Handler.segments, parts, ← rule]
    rfl
  · rw [superadminOf_worlds, superadminOf_worlds]
  · exact fun _ _ => adminOf_logs
  · intro renames ruled
    rw [stepUpOf_still still] at ruled
    cases ruled
  · intro _
    rw [adminOf_logs, adminOf_logs]
    refine ⟨rfl, ?_⟩
    funext renames
    rw [stepUpOf_still still, stepUpOf_still still]

theorem compared (h : Handler) {values : List String} {m : Method} (accepted : h.accepts m = true)
    (count : values.length = h.params) : ∃ x rest rule, Compared h values m x rest rule := by
  cases shape h with
  | fixed none' =>
    have empty : values = [] := List.length_eq_zero_iff.mp (count.trans none')
    subst empty
    have named : ∃ x rest, h.segments [] = "api" :: x :: rest := by
      cases h
      all_goals exact ⟨_, _, rfl⟩
    obtain ⟨x, rest, segments⟩ := named
    exact ⟨x, rest, rest, segments, segments, rfl, rfl, fun h _ => h, fun _ h => h,
      fun _ => ⟨rfl, rfl⟩⟩
  | item x name parts changes other =>
    exact ⟨x, compared_item accepted count parts changes other⟩
  | inner x name l more parts none' other =>
    exact ⟨x, compared_inner count parts none' other⟩
  | logs name c more parts get => exact ⟨"worlds", compared_logs accepted count parts get⟩

/-- The handlers that no test on their path asks an administrator for. -/
def Handler.uncovered : List Handler :=
  [createWorld, listSchedules, listMissedRuns, resolveMissedRun, listJavaRuntimes]

/-- The segments of a rule behind the first two. -/
def Handler.ruleRest (h : Handler) : List String := Part.fill h.route.2.tail []

def Handler.second (h : Handler) : String := (Part.fill h.route.2 []).headD ""

theorem rule_segments (h : Handler) : h.segments [] = "api" :: h.second :: h.ruleRest := by
  cases h
  all_goals rfl

theorem accepts_cases {h : Handler} {m : Method} (accepted : h.accepts m = true) :
    m = h.route.1 ∨ h.route.1 = .get ∧ m = .head := by
  simpa [Handler.accepts] using accepted

section Rules

variable (h : Handler) {m : Method} (accepted : h.accepts m = true)

include accepted

theorem rule_superadmin :
    superadminOf m h.second h.ruleRest = decide (h.mark.rank = .superadmin) := by
  obtain rfl | ⟨get, rfl⟩ := accepts_cases accepted
  · clear accepted
    cases h
    all_goals decide
  · clear accepted
    revert get
    cases h
    all_goals decide

theorem rule_admin (rank : h.mark.rank = .admin) (covered : h ∉ Handler.uncovered) :
    adminOf m h.second h.ruleRest = true := by
  revert rank covered
  obtain rfl | ⟨get, rfl⟩ := accepts_cases accepted
  · clear accepted
    cases h
    all_goals decide
  · clear accepted
    revert get
    cases h
    all_goals decide

theorem rule_stepUp (marked : h.mark.stepUp = true) (other : h ≠ .managerRestart)
    (renames : Bool) : stepUpOf m h.second h.ruleRest renames = true := by
  revert marked other
  obtain rfl | ⟨get, rfl⟩ := accepts_cases accepted
  · clear accepted
    cases renames
    all_goals
      cases h
      all_goals decide
  · clear accepted
    revert get
    cases renames
    all_goals
      cases h
      all_goals decide

end Rules

theorem second_private (h : Handler) : h.second ≠ "health" ∧ h.second ≠ "auth" := by
  cases h
  all_goals decide

theorem publicOf_private {m : Method} {x : String} {rest : List String}
    (hx : x ≠ "health" ∧ x ≠ "auth") : publicOf m x rest = (m == .options) := by
  simp [publicOf, hx]

/-- The tests of the middleware on a request for a marked handler. -/
structure Asked (h : Handler) (values : List String) (req : HttpRequest) (x : String)
    (rest : List String) : Prop where
  tested : Tested req.path x rest
  shut : req.isPublicRequest = false
  superadmin : req.requiresSuperadmin = decide (h.mark.rank = .superadmin)
  admin : h.mark.rank = .admin → h ∉ Handler.uncovered → ¬h.namesStart values →
    req.requiresAdmin = true
  stepUp : h.mark.stepUp = true → h ≠ .managerRestart → req.requiresStepUp = true
  length : rest.length = h.ruleRest.length
  second : x = h.second
  plain : ¬h.endsInWord values → req.requiresAdmin = adminOf req.method x h.ruleRest ∧
    req.requiresStepUp = stepUpOf req.method x h.ruleRest
      (req.body.any fun body => (body.lookup "username").isSome)

theorem asked {h : Handler} {values : List String} {req : HttpRequest}
    (serves : h.Serves values req) : ∃ rest, Asked h values req h.second rest := by
  obtain ⟨x, rest, rule, c⟩ := compared h serves.method serves.count
  have ruled := c.ruled
  rw [rule_segments] at ruled
  obtain ⟨-, rfl, rfl⟩ : "api" = "api" ∧ h.second = x ∧ h.ruleRest = rule := by
    simpa using ruled
  have t : Tested req.path h.second rest := by
    rw [serves.path, Handler.path, c.segments]
    apply tested
    rw [← c.segments]
    exact words_segments h serves.words
  refine ⟨rest, t, ?_, ?_, ?_, ?_, c.length, rfl, ?_⟩
  · rw [isPublicRequest_text t, publicOf_private (second_private h), beq_eq_false_iff_ne]
    intro options
    have accepted := serves.method
    rw [options] at accepted
    revert accepted
    clear c t serves ruled
    cases h
    all_goals decide
  · rw [requiresSuperadmin_text t, c.superadmin, rule_superadmin h serves.method]
  · intro rank covered apart
    rw [requiresAdmin_text t]
    exact c.admin (rule_admin h serves.method rank covered) apart
  · intro marked other
    rw [requiresStepUp_text t]
    exact c.stepUp _ (rule_stepUp h serves.method marked other _)
  · intro plain
    rw [requiresAdmin_text t, requiresStepUp_text t, (c.same plain).1, (c.same plain).2]
    exact ⟨rfl, rfl⟩

end McManager.Access

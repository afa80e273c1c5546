import Mathlib.Data.List.Forall2
import Mathlib.Logic.Relation
import Realms.Proofs.Resolution

/-!
The normal form of written paths. A text has none exactly if two dots outnumber the names in front of them somewhere,
or if they take back every name. Two texts that have one have the same exactly if they are spellings of one walk.
-/
namespace Realms.ModulePath

variable {segment : List Char} {segments rest front more back kept last : List (List Char)} {raw other : String}
  {path : ModulePath}

/-- The segments of a written path. -/
def segmentsOf (raw : String) : List (List Char) := splitSegments raw.toList

/-! ### Kinds of segments -/

/-- A segment that leads nowhere else. -/
def IsIdle (segment : List Char) : Prop := segment = [] ∨ segment = ['.']

/-- Whether a segment leads to what has its name. -/
def isOrdinary (segment : List Char) : Bool := segment != [] && segment != ['.'] && segment != ['.', '.']

theorem isOrdinary_iff : isOrdinary segment = true ↔ ¬IsIdle segment ∧ segment ≠ ['.', '.'] := by
  simp [isOrdinary, IsIdle]

theorem segment_cases (segment : List Char) :
    IsIdle segment ∨ segment = ['.', '.'] ∨ isOrdinary segment = true := by
  by_cases idle : IsIdle segment
  · exact .inl idle
  · by_cases up : segment = ['.', '.']
    · exact .inr (.inl up)
    · exact .inr (.inr (isOrdinary_iff.mpr ⟨idle, up⟩))

theorem addSegments_idle (idle : IsIdle segment) (kept rest : List (List Char)) :
    addSegments kept (segment :: rest) = addSegments kept rest := by
  rcases idle with rfl | rfl <;> rfl

theorem addSegments_ordinary (ordinary : isOrdinary segment = true) (kept rest : List (List Char)) :
    addSegments kept (segment :: rest) = addSegments (segment :: kept) rest := by
  obtain ⟨notIdle, notUp⟩ := isOrdinary_iff.mp ordinary
  obtain ⟨nonempty, notHere⟩ := not_or.mp notIdle
  have adds : addSegment kept segment = .ok (segment :: kept) := by simp [addSegment, nonempty, notHere, notUp]
  rw [addSegments, adds]
  rfl

/-! ### Names and two dots, counted -/

/-- How many names segments enter. -/
def namesIn (segments : List (List Char)) : Nat := segments.countP isOrdinary

/-- How often segments lead up. -/
def upsIn (segments : List (List Char)) : Nat := segments.count ['.', '.']

theorem counts_idle (idle : IsIdle segment) (rest : List (List Char)) :
    namesIn (segment :: rest) = namesIn rest ∧ upsIn (segment :: rest) = upsIn rest := by
  rcases idle with rfl | rfl
  · exact ⟨List.countP_cons_of_neg (by decide), List.count_cons_of_ne (by decide)⟩
  · exact ⟨List.countP_cons_of_neg (by decide), List.count_cons_of_ne (by decide)⟩

theorem counts_up (rest : List (List Char)) :
    namesIn (['.', '.'] :: rest) = namesIn rest ∧ upsIn (['.', '.'] :: rest) = upsIn rest + 1 :=
  ⟨List.countP_cons_of_neg (by decide), List.count_cons_self⟩

theorem counts_ordinary (ordinary : isOrdinary segment = true) (rest : List (List Char)) :
    namesIn (segment :: rest) = namesIn rest + 1 ∧ upsIn (segment :: rest) = upsIn rest :=
  ⟨List.countP_cons_of_pos ordinary, List.count_cons_of_ne (isOrdinary_iff.mp ordinary).2⟩

/-- Each name is kept or taken back. -/
theorem addSegments_balance (h : addSegments kept segments = .ok last) :
    last.length + upsIn segments = kept.length + namesIn segments := by
  induction segments generalizing kept with
  | nil => exact congrArg List.length (Except.ok.inj h).symm
  | cons segment rest ih =>
      rcases segment_cases segment with idle | rfl | ordinary
      · obtain ⟨names, ups⟩ := counts_idle idle rest
        rw [addSegments_idle idle] at h
        rw [names, ups, ih h]
      · obtain ⟨names, ups⟩ := counts_up rest
        cases kept with
        | nil => cases h
        | cons name kept =>
            have balance := ih (show addSegments kept rest = .ok last from h)
            rw [names, ups, List.length_cons]
            omega
      · obtain ⟨names, ups⟩ := counts_ordinary ordinary rest
        rw [addSegments_ordinary ordinary] at h
        have balance := ih h
        rw [List.length_cons] at balance
        rw [names, ups]
        omega

theorem exists_of_addSegments_eq_error {fault : PathFault} (h : addSegments kept segments = .error fault) :
    fault = .escapes ∧ ∃ front, front <+: segments ∧ kept.length + namesIn front < upsIn front := by
  induction segments generalizing kept with
  | nil => cases h
  | cons segment rest ih =>
      rcases segment_cases segment with idle | rfl | ordinary
      · rw [addSegments_idle idle] at h
        obtain ⟨same, front, leads, fewer⟩ := ih h
        obtain ⟨names, ups⟩ := counts_idle idle front
        exact ⟨same, segment :: front, List.cons_prefix_cons.mpr ⟨rfl, leads⟩, by rwa [names, ups]⟩
      · cases kept with
        | nil => exact ⟨(Except.error.inj h).symm, [['.', '.']], List.cons_prefix_cons.mpr ⟨rfl, List.nil_prefix⟩,
            by decide⟩
        | cons name kept =>
            obtain ⟨same, front, leads, fewer⟩ := ih (show addSegments kept rest = .error fault from h)
            obtain ⟨names, ups⟩ := counts_up front
            refine ⟨same, ['.', '.'] :: front, List.cons_prefix_cons.mpr ⟨rfl, leads⟩, ?_⟩
            rw [names, ups, List.length_cons]
            omega
      · rw [addSegments_ordinary ordinary] at h
        obtain ⟨same, front, leads, fewer⟩ := ih h
        obtain ⟨names, ups⟩ := counts_ordinary ordinary front
        refine ⟨same, segment :: front, List.cons_prefix_cons.mpr ⟨rfl, leads⟩, ?_⟩
        rw [List.length_cons] at fewer
        rw [names, ups]
        omega

/-- Somewhere two dots outnumber the names in front of them. -/
def Escapes (segments : List (List Char)) : Prop := ∃ front, front <+: segments ∧ namesIn front < upsIn front

/-- Every name is taken back. -/
def LeavesNothing (segments : List (List Char)) : Prop := namesIn segments = upsIn segments

theorem not_escapes (h : addSegments [] segments = .ok last) : ¬Escapes segments := by
  rintro ⟨front, ⟨back, rfl⟩, fewer⟩
  rw [addSegments_append] at h
  obtain ⟨kept, adds, _⟩ := bind_eq_ok.mp h
  have balance := addSegments_balance adds
  rw [List.length_nil] at balance
  omega

/-- The outcomes of reading a text, by its segments. -/
theorem ofText_cases (raw : String) :
    (Escapes (segmentsOf raw) ∧ ofText raw = .error (.atFile (.escapesRoot raw) raw)) ∨
      (¬Escapes (segmentsOf raw) ∧ LeavesNothing (segmentsOf raw) ∧
        ofText raw = .error (.atFile (.namesNoFile raw) raw)) ∨
      (¬Escapes (segmentsOf raw) ∧ ¬LeavesNothing (segmentsOf raw) ∧ ∃ path, ofText raw = .ok path) := by
  cases adds : addSegments [] (segmentsOf raw) with
  | error fault =>
      obtain ⟨rfl, front, leads, fewer⟩ := exists_of_addSegments_eq_error adds
      rw [List.length_nil, Nat.zero_add] at fewer
      have reads : normalize raw = .error .escapes := by
        rw [normalize]
        exact congrArg (· >>= _) adds
      exact .inl ⟨⟨front, leads, fewer⟩, by rw [ofText, reads]⟩
  | ok kept =>
      have stays := not_escapes adds
      have balance := addSegments_balance adds
      rw [List.length_nil, Nat.zero_add] at balance
      cases kept with
      | nil =>
          have reads : normalize raw = .error .namesNothing := by
            rw [normalize]
            exact congrArg (· >>= _) adds
          rw [List.length_nil, Nat.zero_add] at balance
          exact .inr (.inl ⟨stays, balance.symm, by rw [ofText, reads]⟩)
      | cons name kept =>
          have reads : normalize raw = .ok ⟨String.ofList (joinSegments (name :: kept).reverse)⟩ :=
            normalize_names (by simp) (by rwa [List.reverse_reverse])
          rw [List.length_cons] at balance
          refine .inr (.inr ⟨stays, ?_, _, by rw [ofText, reads]⟩)
          intro nothing
          rw [LeavesNothing] at nothing
          omega

theorem ofText_fails : (∃ e, ofText raw = .error e) ↔ Escapes (segmentsOf raw) ∨ LeavesNothing (segmentsOf raw) := by
  rcases ofText_cases raw with ⟨escapes, reads⟩ | ⟨_, nothing, reads⟩ | ⟨stays, some, path, reads⟩
  · exact ⟨fun _ => .inl escapes, fun _ => ⟨_, reads⟩⟩
  · exact ⟨fun _ => .inr nothing, fun _ => ⟨_, reads⟩⟩
  · rw [reads]
    refine ⟨?_, fun outside => (outside.elim stays some).elim⟩
    rintro ⟨_, fails⟩
    cases fails

/-! ### The path of a text -/

/-- The path whose names are given. -/
def ofSegments (names : List (List Char)) : ModulePath := ⟨String.ofList (joinSegments names)⟩

theorem segmentsOf_ofSegments (nonempty : segments ≠ []) (names : ∀ name ∈ segments, IsName name) :
    segmentsOf (ofSegments segments).text = segments := by
  rw [segmentsOf, ofSegments, String.toList_ofList, splitSegments_join nonempty names]

theorem segmentsOf_slash (a b : String) : segmentsOf (a ++ "/" ++ b) = segmentsOf a ++ segmentsOf b := by
  have chars : (a ++ "/" ++ b).toList = a.toList ++ '/' :: b.toList := by simp
  rw [segmentsOf, chars, splitSegments_slash]
  rfl

theorem Normal.eq_ofSegments (normal : path.Normal) : segmentsOf path.text ≠ [] ∧
    (∀ name ∈ segmentsOf path.text, IsName name) ∧ path = ofSegments (segmentsOf path.text) := by
  obtain ⟨segments, nonempty, names, text⟩ := normal
  obtain rfl : path = ofSegments segments := congrArg ModulePath.mk text
  rw [segmentsOf_ofSegments nonempty names]
  exact ⟨nonempty, names, rfl⟩

theorem Normal.ofText (normal : path.Normal) : ModulePath.ofText path.text = .ok path := by
  rw [ModulePath.ofText, normal.normalize]

/-- A text has a path exactly if the path is in normal form and its names are what the segments keep. -/
theorem ofText_eq_ok : ofText raw = .ok path ↔
    path.Normal ∧ addSegments [] (segmentsOf raw) = .ok (segmentsOf path.text).reverse := by
  constructor
  · intro reads
    have normal := ofText_normal reads
    refine ⟨normal, ?_⟩
    unfold ModulePath.ofText at reads
    split at reads
    · rename_i found normalizes
      obtain rfl := Except.ok.inj reads
      obtain ⟨kept, adds, ends⟩ := bind_eq_ok.mp normalizes
      have names := addSegments_names (List.forall_mem_nil IsName)
        (fun segment member => splitSegments_whole member) adds
      cases kept with
      | nil => cases ends
      | cons name kept =>
          obtain rfl := Except.ok.inj ends
          have kept_eq : segmentsOf (ofSegments (name :: kept).reverse).text = (name :: kept).reverse :=
            segmentsOf_ofSegments (by simp) fun segment member => names segment (List.mem_reverse.mp member)
          rw [ofSegments] at kept_eq
          rw [kept_eq, List.reverse_reverse]
          exact adds
    · cases reads
    · cases reads
  · rintro ⟨normal, adds⟩
    obtain ⟨nonempty, _, same⟩ := normal.eq_ofSegments
    have reads := normalize_names nonempty adds
    rw [ModulePath.ofText, reads]
    exact congrArg Except.ok same.symm

theorem ofText_congr (same : addSegments [] (segmentsOf other) = addSegments [] (segmentsOf raw)) :
    (ofText other).toOption = (ofText raw).toOption := by
  ext path
  rw [toOption_eq_some, toOption_eq_some, ofText_eq_ok, ofText_eq_ok, same]

/-! ### Other spellings -/

/-- A text has more segments than another one at one place, which may be between two segments, in front of all of them
or behind. -/
def Inserts (more : List (List Char)) (raw other : String) : Prop :=
  ∃ front back, segmentsOf raw = front ++ back ∧ segmentsOf other = front ++ more ++ back

/-- One change of a written path that leaves its meaning. -/
inductive Respelled : String → String → Prop
  /-- Some slashes, or all of them, lean back. -/
  | separators {raw other : String} :
      List.Forall₂ (fun c d => c = d ∨ c = '/' ∧ d = '\\') raw.toList other.toList → Respelled raw other
  | idle {raw other : String} {segment : List Char} :
      IsIdle segment → Inserts [segment] raw other → Respelled raw other
  /-- A folder is entered and left. -/
  | detour {raw other : String} {name : List Char} :
      isOrdinary name = true → Inserts [name, ['.', '.']] raw other → Respelled raw other
  /-- What stands in front of a slash is put into normal form. -/
  | leading {front : String} {path : ModulePath} (rest : String) :
      ofText front = .ok path → Respelled (front ++ "/" ++ rest) (path.text ++ "/" ++ rest)

theorem splitSegments_congr {cs ds : List Char}
    (alike : List.Forall₂ (fun c d => c = d ∨ c = '/' ∧ d = '\\') cs ds) : splitSegments cs = splitSegments ds := by
  induction alike with
  | nil => rfl
  | @cons c d cs ds same _ ih =>
      rw [splitSegments] at ih ⊢
      rw [splitSegments, List.splitOnP_cons_eq_if_modifyHead, List.splitOnP_cons_eq_if_modifyHead, ih]
      rcases same with rfl | ⟨rfl, rfl⟩
      · rfl
      · rfl

/-- Segments that lead back to where they start may stand anywhere. -/
theorem Inserts.adds_eq (inserts : Inserts more raw other) (stays : ∀ kept, addSegments kept more = .ok kept) :
    addSegments [] (segmentsOf other) = addSegments [] (segmentsOf raw) := by
  obtain ⟨front, back, whole, longer⟩ := inserts
  rw [whole, longer, List.append_assoc, addSegments_append, addSegments_append]
  congr 1
  funext kept
  rw [addSegments_append, stays]
  rfl

theorem Respelled.adds_eq (respelled : Respelled raw other) :
    addSegments [] (segmentsOf other) = addSegments [] (segmentsOf raw) := by
  cases respelled with
  | separators alike => rw [segmentsOf, segmentsOf, splitSegments_congr alike]
  | idle isIdle inserts => exact inserts.adds_eq fun kept => addSegments_idle isIdle kept []
  | detour ordinary inserts =>
      apply inserts.adds_eq
      intro kept
      rw [addSegments_ordinary ordinary]
      rfl
  | @leading front path rest reads =>
      obtain ⟨normal, adds⟩ := ofText_eq_ok.mp reads
      have own := (ofText_eq_ok.mp normal.ofText).2
      rw [segmentsOf_slash, segmentsOf_slash, addSegments_append, addSegments_append, adds, own]

theorem respelled_adds_eq (spelling : Relation.EqvGen Respelled raw other) :
    addSegments [] (segmentsOf other) = addSegments [] (segmentsOf raw) := by
  induction spelling with
  | rel raw other respelled => exact respelled.adds_eq
  | refl raw => rfl
  | symm raw other _ ih => exact ih.symm
  | trans raw between other _ _ first second => exact second.trans first

/-- A text that has a path is a spelling of it. -/
theorem respelled_of_ofText (reads : ofText raw = .ok path) : Relation.EqvGen Respelled raw path.text := by
  have trailing (text : String) : Respelled text (text ++ "/" ++ "") := by
    refine .idle (.inl rfl) ⟨segmentsOf text, [], (List.append_nil _).symm, ?_⟩
    rw [segmentsOf_slash, List.append_nil]
    rfl
  refine .trans _ _ _ (.rel _ _ (trailing raw)) ?_
  exact .trans _ _ _ (.rel _ _ (.leading "" reads)) (.symm _ _ (.rel _ _ (trailing path.text)))

/-- What is promised of a written path and of its other spellings. -/
structure Normalizes (raw : String) : Prop where
  /-- The path of a text is in normal form, and that is its own. -/
  normal : ∀ path, ofText raw = .ok path → path.Normal ∧ ofText path.text = .ok path
  fails : (∃ e, ofText raw = .error e) ↔ Escapes (segmentsOf raw) ∨ LeavesNothing (segmentsOf raw)
  respelled : ∀ other, Relation.EqvGen Respelled raw other → (ofText other).toOption = (ofText raw).toOption
  same : ∀ path other, ofText raw = .ok path → ofText other = .ok path → Relation.EqvGen Respelled raw other

theorem ofText_normalizes (raw : String) : Normalizes raw where
  normal path reads := by
    have normal := ofText_normal reads
    exact ⟨normal, normal.ofText⟩
  fails := ofText_fails
  respelled other spelling := ofText_congr (respelled_adds_eq spelling)
  same path other reads otherReads :=
    .trans _ _ _ (respelled_of_ofText reads) (.symm _ _ (respelled_of_ofText otherReads))

example : (ofText "a\\.//b/../../c.js").toOption = some ⟨"c.js"⟩ := by decide

end Realms.ModulePath

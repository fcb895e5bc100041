import Ferry.Peer.Caller
import Ferry.Proofs.Text.Blank

/-!
# Which URLs addresses are made into

An address loses the blank characters around it, then the slashes at its end, each once and in this
order. If a blank stood right before these slashes, it is at the end now, and it stays there: such
an address is accepted even if it holds nothing but blanks and slashes, its URL ends with a blank,
and the same address is not the result again when the URL is taken for an address. Every other
address has a URL in normal form, or it is refused because nothing but slashes stood between the
blanks.
-/

namespace Ferry.Peer

open Text

namespace Address

/-- A blank character stands right before the slashes at the end of an address, and not at its
beginning. -/
def StrayBlank (address : String) : Prop :=
  ∃ front blank slashes back, address.toList = front ++ [blank] ++ slashes ++ back ∧
    ¬ AllBlank front ∧ isBlank blank = true ∧ slashes ≠ [] ∧ (∀ c ∈ slashes, c = '/') ∧
    AllBlank back

variable {address : String} {front inner slashes back : List Char}

theorem not_isBlank_slash : ¬ isBlank '/' = true := by decide

theorem not_endsWith_of_slashes (all : ∀ c ∈ slashes, c = '/') :
    ¬ EndsWith isBlank slashes := by
  rintro ⟨c, last, blank⟩
  rw [all c (List.mem_of_getLast? last)] at blank
  exact not_isBlank_slash blank

/-- What is left of an address, and what was around it: blanks, the slashes, and blanks again.
Without slashes at its end an address does not end with a blank. -/
theorem exists_core (address : String) :
    ∃ front slashes back, address.toList = front ++ core address ++ slashes ++ back ∧
      AllBlank front ∧ (∀ c ∈ slashes, c = '/') ∧ AllBlank back ∧
      ¬ BeginsWith isBlank (core address) ∧ ¬ EndsWith (· == '/') (core address) ∧
      (slashes = [] → ¬ EndsWith isBlank (core address)) := by
  obtain ⟨front, back, whole, blank, blanks, begins, ends⟩ := exists_trim address.toList
  obtain ⟨slashes, trimmed, all, stops⟩ := exists_dropEndWhile (· == '/') (trim address.toList)
  change trim address.toList = core address ++ slashes at trimmed
  rw [trimmed] at whole begins ends
  refine ⟨front, slashes, back, ?_, blank, ?_, blanks, ?_, stops, ?_⟩
  · simpa only [List.append_assoc] using whole
  · intro c member
    exact beq_iff_eq.mp (all c member)
  · intro starts
    have occupied : core address ≠ [] := by
      rintro empty
      obtain ⟨c, first, -⟩ := starts
      rw [empty] at first
      cases first
    exact begins ((beginsWith_append_iff occupied).mpr starts)
  · rintro rfl
    rw [List.append_nil] at ends
    exact ends

/-- Only one part of an address can be left. -/
theorem core_eq (whole : address.toList = front ++ inner ++ slashes ++ back)
    (occupied : inner ≠ []) (blank : AllBlank front) (all : ∀ c ∈ slashes, c = '/')
    (blanks : AllBlank back) (begins : ¬ BeginsWith isBlank inner)
    (stops : ¬ EndsWith (· == '/') inner) (ends : slashes = [] → ¬ EndsWith isBlank inner) :
    core address = inner := by
  have begins : ¬ BeginsWith isBlank (inner ++ slashes) := fun starts =>
    begins ((beginsWith_append_iff occupied).mp starts)
  have ends : ¬ EndsWith isBlank (inner ++ slashes) := by
    by_cases none : slashes = []
    · rw [none, List.append_nil]
      exact ends none
    · rw [endsWith_append_iff none]
      exact not_endsWith_of_slashes all
  have trimmed : trim address.toList = inner ++ slashes := by
    rw [whole, List.append_assoc front]
    exact trim_append blank begins ends blanks
  rw [core, trimmed]
  exact dropEndWhile_append (fun c member => beq_iff_eq.mpr (all c member)) stops

/-- A stray blank is what an address ends with when its slashes are gone. -/
theorem strayBlank_iff : StrayBlank address ↔ EndsWith isBlank (core address) := by
  constructor
  · rintro ⟨front, blank, slashes, back, whole, something, isBlank, occupied, all, blanks⟩
    obtain ⟨outer, parted, outside, begins⟩ := exists_dropWhile Text.isBlank front
    have inside : front.dropWhile Text.isBlank ≠ [] := fun empty =>
      something (List.dropWhile_eq_nil_iff.mp empty)
    have whole : address.toList =
        outer ++ (front.dropWhile Text.isBlank ++ [blank]) ++ slashes ++ back := by
      rw [whole, ← List.append_assoc outer, ← parted]
    have begins : ¬ BeginsWith Text.isBlank (front.dropWhile Text.isBlank ++ [blank]) := by
      rwa [beginsWith_append_iff inside]
    have stops : ¬ EndsWith (· == '/') (front.dropWhile Text.isBlank ++ [blank]) := by
      rw [endsWith_concat_iff, beq_iff_eq]
      rintro rfl
      exact not_isBlank_slash isBlank
    have same : core address = front.dropWhile Text.isBlank ++ [blank] :=
      core_eq whole (List.append_ne_nil_of_right_ne_nil _ (List.cons_ne_nil _ _)) outside all blanks
        begins stops fun none => absurd none occupied
    rw [same]
    exact endsWith_concat_iff.mpr isBlank
  · rintro ⟨blank, last, isBlank⟩
    obtain ⟨front, slashes, back, whole, outside, all, blanks, begins, stops, ends⟩ :=
      exists_core address
    obtain ⟨inner, same⟩ := List.getLast?_eq_some_iff.mp last
    rw [same] at whole begins ends
    refine ⟨front ++ inner, blank, slashes, back, ?_, ?_, isBlank, ?_, all, blanks⟩
    · simp only [whole, List.append_assoc]
    · intro allBlank
      have innerBlank : AllBlank (inner ++ [blank]) :=
        List.forall_mem_append.mpr ⟨(List.forall_mem_append.mp allBlank).2, by simpa using isBlank⟩
      cases inner with
      | nil => exact begins (beginsWith_cons_iff.mpr isBlank)
      | cons first rest =>
          exact begins (beginsWith_cons_iff.mpr (innerBlank first List.mem_cons_self))
    · intro none
      exact ends none (endsWith_concat_iff.mpr isBlank)

/-- What is left of an address, with a scheme. -/
def withScheme (core : List Char) : List Char :=
  if schemes.any fun scheme => scheme.isPrefixOf core then core else defaultScheme ++ core

theorem withScheme_eq_self {scheme : List Char} (known : scheme ∈ schemes)
    (given : scheme <+: inner) : withScheme inner = inner := by
  have found : schemes.any (fun scheme => scheme.isPrefixOf inner) = true :=
    List.any_eq_true.mpr ⟨scheme, known, List.isPrefixOf_iff_prefix.mpr given⟩
  rw [withScheme, if_pos found]

theorem baseUrl?_eq (address : String) :
    baseUrl? address = if core address = [] then .error (.invalidAddress "")
      else .ok (String.ofList (withScheme (core address))) := by
  rw [baseUrl?, withScheme]
  split
  · rfl
  · split <;> rfl

theorem not_isBlank_of_mem_scheme {scheme : List Char} (known : scheme ∈ schemes) :
    ∀ c ∈ scheme, ¬ isBlank c = true := by
  have none : ∀ scheme ∈ schemes, scheme.any isBlank = false := by decide
  exact List.any_eq_false.mp (none scheme known)

theorem endsWith_slash_of_scheme {scheme : List Char} (known : scheme ∈ schemes) :
    EndsWith (· == '/') scheme := by
  simp only [schemes, List.mem_cons, List.not_mem_nil, or_false] at known
  rcases known with rfl | rfl <;> exact ⟨'/', rfl, rfl⟩

theorem not_beginsWith_scheme {scheme rest : List Char} (known : scheme ∈ schemes) :
    ¬ BeginsWith isBlank (scheme ++ rest) := by
  have occupied : scheme ≠ [] := by
    rintro rfl
    exact not_endsWith_nil (endsWith_slash_of_scheme known)
  rw [beginsWith_append_iff occupied]
  rintro ⟨c, first, blank⟩
  exact not_isBlank_of_mem_scheme known c (List.mem_of_head? first) blank

/-- Behind its scheme there is something, and it is the end of what was left of the address. -/
theorem exists_scheme (occupied : inner ≠ []) (stops : ¬ EndsWith (· == '/') inner) :
    ∃ scheme ∈ schemes, ∃ rest, withScheme inner = scheme ++ rest ∧ rest ≠ [] ∧
      ∀ p, EndsWith p (withScheme inner) ↔ EndsWith p inner := by
  rw [withScheme]
  split
  · rename_i given
    obtain ⟨scheme, known, isPrefix⟩ := List.any_eq_true.mp given
    obtain ⟨rest, rfl⟩ := List.isPrefixOf_iff_prefix.mp isPrefix
    refine ⟨scheme, known, rest, rfl, ?_, fun p => Iff.rfl⟩
    rintro rfl
    rw [List.append_nil] at stops
    exact stops (endsWith_slash_of_scheme known)
  · exact ⟨defaultScheme, List.mem_cons_self, inner, rfl, occupied,
      fun p => endsWith_append_iff occupied⟩

variable {url : String} {scheme rest : List Char}

/-- A URL with a scheme that ends neither with a slash nor with a blank is the URL of itself. -/
theorem baseUrl?_again (known : scheme ∈ schemes) (whole : url.toList = scheme ++ rest)
    (stops : ¬ EndsWith (· == '/') url.toList) (ends : ¬ EndsWith isBlank url.toList) :
    baseUrl? url = .ok url := by
  have occupied : url.toList ≠ [] := by
    intro empty
    rw [empty] at whole
    have nothing := (List.append_eq_nil_iff.mp whole.symm).1
    exact not_endsWith_nil (nothing ▸ endsWith_slash_of_scheme known)
  have none : AllBlank [] := List.forall_mem_nil _
  have same : core url = url.toList :=
    core_eq (by simp) occupied none (List.forall_mem_nil _) none
      (whole ▸ not_beginsWith_scheme known) stops fun _ => ends
  rw [baseUrl?_eq, same, if_neg occupied, withScheme_eq_self known ⟨rest, whole.symm⟩,
    String.ofList_toList]

/-- If it ends with a blank it is not the URL of itself. -/
theorem baseUrl?_ne_self (known : scheme ∈ schemes) (whole : url.toList = scheme ++ rest)
    (ends : EndsWith isBlank url.toList) : baseUrl? url ≠ .ok url := by
  intro same
  obtain ⟨front, slashes, back, parted, blank, -, -, -, stopped, clean⟩ := exists_core url
  rw [baseUrl?_eq] at same
  split at same
  · cases same
  · rename_i occupied
    have same : withScheme (core url) = url.toList := by
      have same := congrArg String.toList (Except.ok.inj same)
      rwa [String.toList_ofList] at same
    have blankEnd : EndsWith isBlank (core url) := by
      obtain ⟨_, _, _, _, _, sameEnd⟩ := exists_scheme occupied stopped
      rwa [← same, sameEnd] at ends
    have nothing : front = [] := by
      by_contra something
      have begins : ¬ BeginsWith isBlank url.toList := whole ▸ not_beginsWith_scheme known
      apply begins
      rw [parted, List.append_assoc, List.append_assoc, beginsWith_append_iff something]
      exact ⟨front.head something, List.head?_eq_some_head something,
        blank _ (List.head_mem something)⟩
    rw [nothing, List.nil_append, List.append_assoc] at parted
    -- Either the core is a part of the scheme, which holds no blanks, or it has that scheme.
    rcases List.prefix_or_prefix_of_prefix ⟨_, parted.symm⟩ ⟨rest, whole.symm⟩ with short | long
    · obtain ⟨c, last, blank⟩ := blankEnd
      have member : c ∈ scheme := short.subset (List.mem_of_getLast? last)
      exact not_isBlank_of_mem_scheme known c member blank
    · rw [withScheme_eq_self known long] at same
      rw [same] at parted
      have none := (List.append_eq_nil_iff.mp (List.self_eq_append_right.mp parted)).1
      exact clean none blankEnd

/-- Nothing is left of an address exactly if it holds nothing but blanks and slashes, and no stray
blank. -/
theorem core_eq_nil_iff :
    core address = [] ↔
      (∀ c ∈ address.toList, isBlank c = true ∨ c = '/') ∧ ¬ StrayBlank address := by
  obtain ⟨front, slashes, back, whole, blank, all, blanks, -, stopped, -⟩ := exists_core address
  constructor
  · intro nothing
    rw [nothing, List.append_nil] at whole
    refine ⟨?_, fun stray => not_endsWith_nil (nothing ▸ strayBlank_iff.mp stray)⟩
    intro c member
    rw [whole, List.mem_append, List.mem_append] at member
    rcases member with (outside | slash) | outside
    · exact .inl (blank c outside)
    · exact .inr (all c slash)
    · exact .inl (blanks c outside)
  · rintro ⟨idle, clean⟩
    by_contra occupied
    have last := List.getLast?_eq_some_getLast occupied
    have member : (core address).getLast occupied ∈ address.toList := by
      rw [whole]
      simp [List.getLast_mem occupied]
    rcases idle _ member with isBlank | isSlash
    · exact clean (strayBlank_iff.mpr ⟨_, last, isBlank⟩)
    · exact stopped ⟨_, last, beq_iff_eq.mpr isSlash⟩

theorem core_eq_nil_of_allBlank (blank : AllBlank address.toList) : core address = [] := by
  rw [core, trim_eq_nil_iff.mpr blank]
  rfl

end Address

open Address

theorem Caller.ofAddress?_eq (address : String) (timeout : Nat) :
    Caller.ofAddress? address timeout = if core address = [] then .error (.invalidAddress "")
      else .ok ⟨String.ofList (withScheme (core address)), timeout⟩ := by
  rw [Caller.ofAddress?, baseUrl?_eq]
  by_cases nothing : core address = []
  · rw [if_pos nothing, if_pos nothing]
  · rw [if_neg nothing, if_neg nothing]

/-- What the caller of an address is like. -/
structure Caller.Reaches (address : String) (caller : Caller) : Prop where
  /-- The URL is a scheme and something that is not blank, unless the address has a stray blank; the
  URL of an endpoint has the path behind it. -/
  url : ∃ scheme ∈ schemes, ∃ rest, caller.baseUrl.toList = scheme ++ rest ∧ rest ≠ [] ∧
    (¬ StrayBlank address → ¬ AllBlank rest) ∧
    ∀ path, (caller.url path).toList = scheme ++ rest ++ path.toList
  begins : ¬ BeginsWith isBlank caller.baseUrl.toList
  stops : ¬ EndsWith (· == '/') caller.baseUrl.toList
  /-- A stray blank of the address is at the end of the URL. -/
  ends_iff : EndsWith isBlank caller.baseUrl.toList ↔ StrayBlank address
  /-- Without a stray blank the URL is the URL of itself. -/
  again_iff : ∀ timeout, Caller.ofAddress? caller.baseUrl timeout = .ok ⟨caller.baseUrl, timeout⟩ ↔
    ¬ StrayBlank address

theorem Caller.reaches_of_core {address : String} (timeout : Nat) (occupied : core address ≠ []) :
    Caller.Reaches address ⟨String.ofList (withScheme (core address)), timeout⟩ := by
  obtain ⟨_, _, _, -, -, -, -, -, stopped, -⟩ := exists_core address
  obtain ⟨scheme, known, rest, whole, something, sameEnd⟩ := exists_scheme occupied stopped
  have stops : ¬ EndsWith (· == '/') (withScheme (core address)) := by rwa [sameEnd]
  have ends_iff : EndsWith isBlank (withScheme (core address)) ↔ StrayBlank address :=
    (sameEnd isBlank).trans strayBlank_iff.symm
  constructor
  case url =>
    refine ⟨scheme, known, rest, String.toList_ofList.trans whole, something, ?_, ?_⟩
    · intro clean blank
      apply clean
      rw [← ends_iff, whole, endsWith_append_iff something]
      exact endsWith_of_forall something blank
    · intro path
      rw [Caller.url, String.toList_append, String.toList_ofList, whole]
  case begins =>
    rw [String.toList_ofList, whole]
    exact not_beginsWith_scheme known
  case stops => rwa [String.toList_ofList]
  case ends_iff => rwa [String.toList_ofList]
  case again_iff =>
    intro timeout
    have whole := String.toList_ofList.trans whole
    rw [← String.toList_ofList (l := withScheme (core address))] at stops ends_iff
    rw [← ends_iff]
    constructor
    · intro again ends
      apply baseUrl?_ne_self known whole ends
      rw [Caller.ofAddress?] at again
      split at again
      · cases again
      · rename_i same
        rw [same, (Caller.mk.inj (Except.ok.inj again)).1]
    · intro clean
      rw [Caller.ofAddress?, baseUrl?_again known whole stops clean]

/-- An address is refused if it holds nothing but blanks and slashes, unless a stray blank is among
them. Every other address has a caller, and its URL is in normal form if the address has no stray
blank. -/
theorem Caller.address_normalised (address : String) (timeout : Nat) :
    ((∃ error, Caller.ofAddress? address timeout = .error error) ↔
      (∀ c ∈ address.toList, isBlank c = true ∨ c = '/') ∧ ¬ StrayBlank address) ∧
    (∀ error, Caller.ofAddress? address timeout = .error error → error = .invalidAddress "") ∧
    ∀ caller, Caller.ofAddress? address timeout = .ok caller →
      caller.timeout = timeout ∧ caller.Reaches address := by
  rw [← core_eq_nil_iff, Caller.ofAddress?_eq]
  by_cases nothing : core address = []
  · rw [if_pos nothing]
    refine ⟨⟨fun _ => nothing, fun _ => ⟨_, rfl⟩⟩, ?_, nofun⟩
    exact fun error refused => (Except.error.inj refused).symm
  · rw [if_neg nothing]
    refine ⟨⟨nofun, fun empty => absurd empty nothing⟩, nofun, ?_⟩
    intro caller accepted
    rw [← Except.ok.inj accepted]
    exact ⟨rfl, reaches_of_core timeout nothing⟩

/-- Two slashes with a blank between them are accepted, and the URL is not the URL of itself. A
scheme with a blank among its slashes has a URL with nothing but this blank behind the scheme. -/
theorem Caller.stray_blank_kept :
    Caller.ofAddress? "/ /" = .ok ⟨"http:/// ", 10000⟩ ∧
    Caller.ofAddress? "http:/// " = .ok ⟨"http://http:", 10000⟩ ∧
    Caller.ofAddress? "http:// /" = .ok ⟨"http:// ", 10000⟩ ∧
    ¬ ∀ address timeout, (∃ error, Caller.ofAddress? address timeout = .error error) ↔
      ∀ c ∈ address.toList, isBlank c = true ∨ c = '/' := by
  have accepted : Caller.ofAddress? "/ /" = .ok ⟨"http:/// ", 10000⟩ := by decide +kernel
  have idle : "/ /".toList.all (fun c => isBlank c || c = '/') = true := by decide
  refine ⟨accepted, by decide +kernel, by decide +kernel, ?_⟩
  intro refused
  obtain ⟨error, refusal⟩ := (refused "/ /" 10000).mpr (by simpa using idle)
  exact Except.noConfusion rfl rfl (heq_of_eq (accepted.symm.trans refusal))

end Ferry.Peer

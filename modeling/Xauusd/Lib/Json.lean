/-
  JSON values, and a canonical text for them.

  An object is the list of its members in the order of its text, a number the
  binary64 it is read as.

  * `WF`: no object names a member twice, as a parser leaves none;
  * `same`: equality up to the order of members;
  * `canonical`: a text in which every part carries its length;
  * `canonical_congr`: equal values have equal texts, whatever the order of
    their members;
  * `canonical_inj`: **a text determines its value**, also in front of another
    text.
-/
import Mathlib
import Std.Data.String.ToNat
import Xauusd.Lib.Text

inductive Json where
  | null
  | bool (b : Bool)
  | num (bits : BitVec 64)
  | str (s : String)
  | arr (items : List Json)
  | obj (members : List (String × Json))
  deriving Repr

namespace Json

/-- Induction on the nesting: a list of items, or of members, all of which the
    property holds of. -/
@[elab_as_elim]
theorem induct {P : Json → Prop} (null : P null) (bool : ∀ b, P (bool b)) (num : ∀ bits, P (num bits))
    (str : ∀ s, P (str s)) (arr : ∀ items, (∀ a ∈ items, P a) → P (arr items))
    (obj : ∀ members, (∀ m ∈ members, P m.2) → P (obj members)) (a : Json) : P a := by
  refine Json.rec (motive_1 := P) (motive_2 := fun items => ∀ a ∈ items, P a)
    (motive_3 := fun members => ∀ m ∈ members, P m.2) (motive_4 := fun m => P m.2)
    null bool num str arr obj ?_ ?_ ?_ ?_ ?_ a
  · intro a ha
    cases ha
  · intro a items ha hitems
    exact List.forall_mem_cons.2 ⟨ha, hitems⟩
  · intro m hm
    cases hm
  · intro m members hm hmembers
    exact List.forall_mem_cons.2 ⟨hm, hmembers⟩
  · intro key v hv
    exact hv

/-! ## Equality of trees -/

mutual

def decEq : (a b : Json) → Decidable (a = b)
  | null, b => match b with
    | null => isTrue rfl
    | bool _ | num _ | str _ | arr _ | obj _ => isFalse (by simp)
  | bool x, b => match b with
    | bool y => decidable_of_iff (x = y) (by simp)
    | null | num _ | str _ | arr _ | obj _ => isFalse (by simp)
  | num x, b => match b with
    | num y => decidable_of_iff (x = y) (by simp)
    | null | bool _ | str _ | arr _ | obj _ => isFalse (by simp)
  | str x, b => match b with
    | str y => decidable_of_iff (x = y) (by simp)
    | null | bool _ | num _ | arr _ | obj _ => isFalse (by simp)
  | arr x, b => match b with
    | arr y => have := decEqItems x y; decidable_of_iff (x = y) (by simp)
    | null | bool _ | num _ | str _ | obj _ => isFalse (by simp)
  | obj x, b => match b with
    | obj y => have := decEqMembers x y; decidable_of_iff (x = y) (by simp)
    | null | bool _ | num _ | str _ | arr _ => isFalse (by simp)

def decEqItems : (a b : List Json) → Decidable (a = b)
  | [], b => match b with
    | [] => isTrue rfl
    | _ :: _ => isFalse (by simp)
  | x :: l, b => match b with
    | [] => isFalse (by simp)
    | y :: l' =>
      have := decEq x y
      have := decEqItems l l'
      decidable_of_iff (x = y ∧ l = l') (by simp)

def decEqMembers : (a b : List (String × Json)) → Decidable (a = b)
  | [], b => match b with
    | [] => isTrue rfl
    | _ :: _ => isFalse (by simp)
  | (k, x) :: l, b => match b with
    | [] => isFalse (by simp)
    | (k', y) :: l' =>
      have := decEq x y
      have := decEqMembers l l'
      decidable_of_iff (k = k' ∧ x = y ∧ l = l') (by simp [and_assoc])

end

instance : DecidableEq Json := decEq

/-! ## Members -/

/-- The member of an object, null when there is none. -/
def get (j : Json) (key : String) : Json :=
  match j with
  | obj members => (members.lookup key).getD null
  | _ => null

/-- Replace a member in its place, or append it. -/
def setMember (key : String) (v : Json) : List (String × Json) → List (String × Json)
  | [] => [(key, v)]
  | (k, w) :: members => if k = key then (key, v) :: members else (k, w) :: setMember key v members

def set (j : Json) (key : String) (v : Json) : Json :=
  match j with
  | obj members => obj (setMember key v members)
  | j => j

def isObject : Json → Bool
  | obj _ => true
  | _ => false

theorem lookup_setMember (key : String) (v : Json) (members : List (String × Json)) :
    (setMember key v members).lookup key = some v := by
  induction members with
  | nil => simp [setMember]
  | cons m members ih =>
    obtain ⟨k, w⟩ := m
    by_cases hk : k = key
    · simp [setMember, hk]
    · have hne : (key == k) = false := by simpa using Ne.symm hk
      simp [setMember, hk, List.lookup_cons, hne, ih]

theorem lookup_setMember_ne {key key' : String} (h : key' ≠ key) (v : Json)
    (members : List (String × Json)) :
    (setMember key v members).lookup key' = members.lookup key' := by
  have hne : (key' == key) = false := by simpa using h
  induction members with
  | nil => simp [setMember, List.lookup_cons, hne]
  | cons m members ih =>
    obtain ⟨k, w⟩ := m
    by_cases hk : k = key
    · subst hk
      simp [setMember, List.lookup_cons, hne]
    · simp [setMember, hk, List.lookup_cons, ih]

theorem get_set {j : Json} (hj : j.isObject = true) (key : String) (v : Json) :
    (j.set key v).get key = v := by
  cases j with
  | obj members => simp [set, get, lookup_setMember]
  | _ => simp [isObject] at hj

theorem get_set_ne {j : Json} {key key' : String} (h : key' ≠ key) (v : Json) :
    (j.set key v).get key' = j.get key' := by
  cases j with
  | obj members => simp [set, get, lookup_setMember_ne h]
  | _ => rfl

@[simp] theorem isObject_set (j : Json) (key : String) (v : Json) :
    (j.set key v).isObject = j.isObject := by
  cases j <;> rfl

/-! ## Equality up to the order of members -/

/-- `±0` -/
def isZero (bits : BitVec 64) : Bool := bits = 0 || bits = 0x8000000000000000

/-- Neither infinite nor not a number. -/
def isFinite (bits : BitVec 64) : Bool := (bits >>> 52) &&& 0x7ff ≠ 0x7ff

mutual

/-- No object names a member twice. -/
def WF : Json → Bool
  | arr items => wfItems items
  | obj members => (members.map (·.1)).Nodup && wfMembers members
  | _ => true

def wfItems : List Json → Bool
  | [] => true
  | j :: items => j.WF && wfItems items

def wfMembers : List (String × Json) → Bool
  | [] => true
  | (_, j) :: members => j.WF && wfMembers members

end

mutual

/-- Every number is finite. -/
def finite : Json → Bool
  | num bits => isFinite bits
  | arr items => finiteItems items
  | obj members => finiteMembers members
  | _ => true

def finiteItems : List Json → Bool
  | [] => true
  | j :: items => j.finite && finiteItems items

def finiteMembers : List (String × Json) → Bool
  | [] => true
  | (_, j) :: members => j.finite && finiteMembers members

end

mutual

/-- Equality up to the order of members, `0` and `-0` being equal. -/
def same : Json → Json → Bool
  | null, b => match b with
    | null => true
    | _ => false
  | bool x, b => match b with
    | bool y => x = y
    | _ => false
  | num x, b => match b with
    | num y => x = y || (isZero x && isZero y)
    | _ => false
  | str x, b => match b with
    | str y => x = y
    | _ => false
  | arr x, b => match b with
    | arr y => sameItems x y
    | _ => false
  | obj x, b => match b with
    | obj y => x.length = y.length && sameMembers x y
    | _ => false

def sameItems : List Json → List Json → Bool
  | [], b => b.isEmpty
  | x :: l, b => match b with
    | [] => false
    | y :: l' => x.same y && sameItems l l'

/-- Every member is in `b`, with an equal value. -/
def sameMembers : List (String × Json) → List (String × Json) → Bool
  | [], _ => true
  | (k, x) :: l, b => (match b.lookup k with
    | none => false
    | some y => x.same y) && sameMembers l b

end

/-! ## The canonical text -/

/-- The bytes of a text. -/
def utf8Length (s : List Char) : ℕ := (s.map Char.utf8Size).sum

/-- A part of the text: its tag, its length, and its body. -/
def framed (tag : Char) (n : ℕ) (body : List Char) : List Char :=
  tag :: Nat.toDigits 10 n ++ ':' :: body ++ [';']

def canonicalStr (s : String) : List Char := framed 's' (utf8Length s.toList) s.toList

/-- The members in the order of their keys. -/
def byKey {β : Type*} (members : List (String × β)) : List (String × β) :=
  members.insertionSort fun m m' => m.1 ≤ m'.1

mutual

def canonical : Json → List Char
  | null => ['n', ';']
  | bool b => [if b then 't' else 'f', ';']
  | num bits => 'd' :: Text.hexDigits 16 (if isZero bits then 0 else bits.toNat) ++ [';']
  | str s => canonicalStr s
  | arr items => framed 'a' items.length (canonicalItems items)
  | obj members => framed 'o' members.length
      ((byKey (canonicalMembers members)).flatMap fun m => canonicalStr m.1 ++ m.2)

def canonicalItems : List Json → List Char
  | [] => []
  | j :: items => j.canonical ++ canonicalItems items

def canonicalMembers : List (String × Json) → List (String × List Char)
  | [] => []
  | (k, j) :: members => (k, j.canonical) :: canonicalMembers members

end

/-! ## Parts of a text -/

theorem toDigits_injective {n m : ℕ} (h : Nat.toDigits 10 n = Nat.toDigits 10 m) : n = m := by
  have hn := Nat.ofDigitChars_toDigits (b := 10) (n := n) (by decide) (by decide)
  have hm := Nat.ofDigitChars_toDigits (b := 10) (n := m) (by decide) (by decide)
  rw [← hn, ← hm, h]

/-- A part that ends before a mark, and holds none, is determined. -/
theorem split_at_mark {p : Char → Prop} {c : Char} (hc : ¬ p c) {l l' x y : List Char}
    (hl : ∀ a ∈ l, p a) (hl' : ∀ a ∈ l', p a) (h : l ++ c :: x = l' ++ c :: y) : l = l' ∧ x = y := by
  induction l generalizing l' with
  | nil =>
    cases l' with
    | nil => exact ⟨rfl, by simpa using h⟩
    | cons a l' =>
      obtain ⟨rfl, -⟩ := List.cons.inj h
      exact absurd (hl' _ List.mem_cons_self) hc
  | cons a l ih =>
    cases l' with
    | nil =>
      obtain ⟨rfl, -⟩ := List.cons.inj h
      exact absurd (hl _ List.mem_cons_self) hc
    | cons a' l' =>
      obtain ⟨rfl, hrest⟩ := List.cons.inj h
      obtain ⟨rfl, rfl⟩ := ih (fun b hb => hl b (List.mem_cons_of_mem _ hb))
        (fun b hb => hl' b (List.mem_cons_of_mem _ hb)) hrest
      exact ⟨rfl, rfl⟩

/-- A part with a known number of bytes is determined. -/
theorem split_at_bytes {l l' x y : List Char} (hlen : utf8Length l = utf8Length l')
    (h : l ++ x = l' ++ y) : l = l' ∧ x = y := by
  induction l generalizing l' with
  | nil =>
    cases l' with
    | nil => exact ⟨rfl, h⟩
    | cons a l' =>
      have := a.utf8Size_pos
      simp only [utf8Length, List.map_nil, List.sum_nil, List.map_cons, List.sum_cons] at hlen
      omega
  | cons a l ih =>
    cases l' with
    | nil =>
      have := a.utf8Size_pos
      simp only [utf8Length, List.map_nil, List.sum_nil, List.map_cons, List.sum_cons] at hlen
      omega
    | cons a' l' =>
      obtain ⟨rfl, hrest⟩ := List.cons.inj h
      simp only [utf8Length, List.map_cons, List.sum_cons, Nat.add_left_cancel_iff] at hlen
      obtain ⟨rfl, rfl⟩ := ih hlen hrest
      exact ⟨rfl, rfl⟩

theorem framed_cancel {t t' : Char} {n n' : ℕ} {body body' x y : List Char}
    (h : framed t n body ++ x = framed t' n' body' ++ y) :
    t = t' ∧ n = n' ∧ body ++ ';' :: x = body' ++ ';' :: y := by
  simp only [framed, List.cons_append, List.append_assoc, List.cons.injEq] at h
  obtain ⟨ht, h⟩ := h
  have hdigits : ∀ k, ∀ a ∈ Nat.toDigits 10 k, a.isDigit = true :=
    fun k a ha => Nat.isDigit_of_mem_toDigits (by decide) (by decide) ha
  obtain ⟨hn, hbody⟩ := split_at_mark (p := fun a => a.isDigit = true) (by decide) (hdigits n)
    (hdigits n') h
  exact ⟨ht, toDigits_injective hn, hbody⟩

theorem canonicalStr_cancel {s s' : String} {x y : List Char}
    (h : canonicalStr s ++ x = canonicalStr s' ++ y) : s = s' ∧ x = y := by
  obtain ⟨-, hlen, hbody⟩ := framed_cancel h
  obtain ⟨hs, hrest⟩ := split_at_bytes hlen hbody
  exact ⟨String.toList_inj.1 hs, (List.cons.inj hrest).2⟩

/-! ## Members in the order of their keys -/

theorem canonicalMembers_eq (members : List (String × Json)) :
    canonicalMembers members = members.map fun m => (m.1, m.2.canonical) := by
  induction members with
  | nil => rfl
  | cons m members ih => rw [canonicalMembers, ih]; rfl

theorem byKey_map {β γ : Type*} (f : β → γ) (members : List (String × β)) :
    byKey (members.map fun m => (m.1, f m.2)) = (byKey members).map fun m => (m.1, f m.2) :=
  (List.map_insertionSort (fun m m' : String × β => m.1 ≤ m'.1)
    (fun m m' : String × γ => m.1 ≤ m'.1) (fun m => (m.1, f m.2)) members
    fun _ _ _ _ => Iff.rfl).symm

theorem mem_byKey {β : Type*} {m : String × β} {members : List (String × β)} :
    m ∈ byKey members ↔ m ∈ members := List.mem_insertionSort _

theorem lookup_of_mem {β : Type*} {members : List (String × β)} (hkeys : (members.map (·.1)).Nodup)
    {m : String × β} (hm : m ∈ members) : members.lookup m.1 = some m.2 := by
  induction members with
  | nil => cases hm
  | cons m' members ih =>
    rw [List.map_cons, List.nodup_cons] at hkeys
    rcases List.mem_cons.1 hm with rfl | hm
    · rw [List.lookup_cons, BEq.rfl]
    · have hne : (m.1 == m'.1) = false := by
        simpa using fun h : m.1 = m'.1 => hkeys.1 (h ▸ List.mem_map_of_mem hm)
      rw [List.lookup_cons, hne]
      exact ih hkeys.2 hm

theorem mem_of_lookup {β : Type*} {members : List (String × β)} {key : String} {v : β}
    (h : members.lookup key = some v) : (key, v) ∈ members := by
  induction members with
  | nil => cases h
  | cons m members ih =>
    rw [List.lookup_cons] at h
    split at h
    · next hkey =>
      rw [← Option.some.inj h, beq_iff_eq.1 hkey]
      exact List.mem_cons_self
    · exact List.mem_cons_of_mem _ (ih h)

theorem sameMembers_iff {members members' : List (String × Json)} :
    sameMembers members members' = true ↔
      ∀ m ∈ members, ∃ v, members'.lookup m.1 = some v ∧ m.2.same v = true := by
  induction members with
  | nil => simp [sameMembers]
  | cons m members ih =>
    simp only [sameMembers, Bool.and_eq_true, ih, List.forall_mem_cons]
    refine and_congr_left fun _ => ?_
    cases members'.lookup m.1 <;> simp

theorem wfItems_iff {items : List Json} : wfItems items = true ↔ ∀ j ∈ items, j.WF = true := by
  induction items with
  | nil => simp [wfItems]
  | cons j items ih => simp [wfItems, ih]

theorem finiteItems_iff {items : List Json} : finiteItems items = true ↔ ∀ j ∈ items, j.finite = true := by
  induction items with
  | nil => simp [finiteItems]
  | cons j items ih => simp [finiteItems, ih]

theorem wfMembers_iff {members : List (String × Json)} :
    wfMembers members = true ↔ ∀ m ∈ members, m.2.WF = true := by
  induction members with
  | nil => simp [wfMembers]
  | cons m members ih => simp [wfMembers, ih]

theorem wf_obj {members : List (String × Json)} : (obj members).WF = true ↔
    (members.map (·.1)).Nodup ∧ ∀ m ∈ members, m.2.WF = true := by
  rw [WF, Bool.and_eq_true, decide_eq_true_eq, wfMembers_iff]

theorem wf_get {j : Json} (h : j.WF = true) (key : String) : (j.get key).WF = true := by
  cases j with
  | obj members =>
    simp only [get]
    cases hv : members.lookup key with
    | none => rfl
    | some v => exact (wf_obj.1 h).2 _ (mem_of_lookup hv)
  | _ => rfl

/-! ## A text determines its value -/

/-- The text of `a` is that of an equal value only, also in front of another
    text. -/
def Determined (a : Json) : Prop :=
  ∀ b x y, a.WF = true → b.WF = true → a.canonical ++ x = b.canonical ++ y →
    a.same b = true ∧ x = y

theorem items_determined {items : List Json} (h : ∀ a ∈ items, a.Determined) {items' : List Json}
    {x y : List Char} (hlen : items.length = items'.length) (hwf : wfItems items = true)
    (hwf' : wfItems items' = true) (heq : canonicalItems items ++ x = canonicalItems items' ++ y) :
    sameItems items items' = true ∧ x = y := by
  induction items generalizing items' with
  | nil =>
    obtain rfl := List.length_eq_zero_iff.1 hlen.symm
    exact ⟨rfl, heq⟩
  | cons a items ih =>
    cases items' with
    | nil => cases hlen
    | cons b items' =>
      simp only [wfItems, Bool.and_eq_true] at hwf hwf'
      simp only [canonicalItems, List.append_assoc] at heq
      obtain ⟨hsame, hrest⟩ := h a List.mem_cons_self b _ _ hwf.1 hwf'.1 heq
      obtain ⟨hsames, hxy⟩ := ih (fun a ha => h a (List.mem_cons_of_mem _ ha))
        (Nat.succ.inj hlen) hwf.2 hwf'.2 hrest
      exact ⟨by simp [sameItems, hsame, hsames], hxy⟩

/-- Members read in the same order have the same keys and equal values. -/
theorem members_determined {l l' : List (String × Json)} (h : ∀ m ∈ l, m.2.Determined)
    {x y : List Char} (hlen : l.length = l'.length) (hwf : ∀ m ∈ l, m.2.WF = true)
    (hwf' : ∀ m ∈ l', m.2.WF = true)
    (heq : l.flatMap (fun m => canonicalStr m.1 ++ m.2.canonical) ++ x =
      l'.flatMap (fun m => canonicalStr m.1 ++ m.2.canonical) ++ y) :
    List.Forall₂ (fun m m' => m.1 = m'.1 ∧ m.2.same m'.2 = true) l l' ∧ x = y := by
  induction l generalizing l' with
  | nil =>
    obtain rfl := List.length_eq_zero_iff.1 hlen.symm
    exact ⟨.nil, heq⟩
  | cons m l ih =>
    cases l' with
    | nil => cases hlen
    | cons m' l' =>
      simp only [List.flatMap_cons, List.append_assoc] at heq
      obtain ⟨hkey, hvalue⟩ := canonicalStr_cancel heq
      obtain ⟨hsame, hrest⟩ := h m List.mem_cons_self m'.2 _ _ (hwf m List.mem_cons_self)
        (hwf' m' List.mem_cons_self) hvalue
      obtain ⟨hrests, hxy⟩ := ih (fun m hm => h m (List.mem_cons_of_mem _ hm)) (Nat.succ.inj hlen)
        (fun m hm => hwf m (List.mem_cons_of_mem _ hm))
        (fun m hm => hwf' m (List.mem_cons_of_mem _ hm)) hrest
      exact ⟨.cons ⟨hkey, hsame⟩ hrests, hxy⟩

theorem members_text (members : List (String × Json)) :
    (byKey (canonicalMembers members)).flatMap (fun m => canonicalStr m.1 ++ m.2) =
      (byKey members).flatMap fun m => canonicalStr m.1 ++ m.2.canonical := by
  rw [canonicalMembers_eq, byKey_map, List.flatMap_map]

theorem exists_of_forall₂ {α : Type*} {R : α → α → Prop} {l l' : List α} (h : List.Forall₂ R l l')
    {a : α} (ha : a ∈ l) : ∃ b ∈ l', R a b := by
  induction h with
  | nil => cases ha
  | cons hab _ ih =>
    rcases List.mem_cons.1 ha with rfl | ha
    · exact ⟨_, List.mem_cons_self, hab⟩
    · obtain ⟨b, hb, hr⟩ := ih ha
      exact ⟨b, List.mem_cons_of_mem _ hb, hr⟩

theorem obj_determined {members : List (String × Json)} (h : ∀ m ∈ members, m.2.Determined) :
    (obj members).Determined := by
  intro b x y hwf hwf' heq
  cases b with
  | obj members' =>
    obtain ⟨-, hlen, hbody⟩ := framed_cancel heq
    rw [wf_obj] at hwf hwf'
    rw [members_text, members_text] at hbody
    obtain ⟨hall, hxy⟩ := members_determined (fun m hm => h m (mem_byKey.1 hm))
      (by rw [byKey, byKey, List.length_insertionSort, List.length_insertionSort, hlen])
      (fun m hm => hwf.2 m (mem_byKey.1 hm)) (fun m hm => hwf'.2 m (mem_byKey.1 hm)) hbody
    refine ⟨?_, (List.cons.inj hxy).2⟩
    simp only [same, hlen, decide_true, Bool.true_and]
    refine sameMembers_iff.2 fun m hm => ?_
    obtain ⟨m', hm', hkey, hsame⟩ := exists_of_forall₂ hall (mem_byKey.2 hm)
    exact ⟨m'.2, hkey ▸ lookup_of_mem hwf'.1 (mem_byKey.1 hm'), hsame⟩
  | null => simp [canonical, framed] at heq
  | bool b => cases b <;> simp [canonical, framed] at heq
  | num | str | arr => simp [canonical, canonicalStr, framed] at heq

theorem num_determined (bits : BitVec 64) : (num bits).Determined := by
  intro b x y _ _ heq
  cases b with
  | num bits' =>
    simp only [canonical, List.cons_append, List.append_assoc, List.cons.injEq, true_and] at heq
    obtain ⟨hdigits, hxy⟩ := List.append_inj heq (by rw [Text.length_hexDigits, Text.length_hexDigits])
    have hsmall (b : BitVec 64) : (if isZero b then 0 else b.toNat) < 16 ^ 16 := by
      have := b.isLt
      split <;> omega
    have hbits := Text.hexDigits_injective (hsmall bits) (hsmall bits') hdigits
    refine ⟨?_, by simpa using hxy⟩
    have hzero (b : BitVec 64) (hb : b.toNat = 0) : isZero b = true := by
      simp [isZero, BitVec.toNat_eq, hb]
    simp only [same, Bool.or_eq_true, decide_eq_true_eq, Bool.and_eq_true]
    by_cases h : isZero bits = true <;> by_cases h' : isZero bits' = true
    · exact .inr ⟨h, h'⟩
    · rw [if_pos h, if_neg h'] at hbits
      exact absurd (hzero _ hbits.symm) h'
    · rw [if_neg h, if_pos h'] at hbits
      exact absurd (hzero _ hbits) h
    · rw [if_neg h, if_neg h'] at hbits
      exact .inl (BitVec.eq_of_toNat_eq hbits)
  | null => simp [canonical] at heq
  | bool b => cases b <;> simp [canonical] at heq
  | str | arr | obj => simp [canonical, canonicalStr, framed] at heq

theorem determined (a : Json) : a.Determined := by
  induction a using induct with
  | null =>
    intro b x y _ _ heq
    cases b with
    | null => exact ⟨rfl, by simpa [canonical] using heq⟩
    | bool b => cases b <;> simp [canonical] at heq
    | num | str | arr | obj => simp [canonical, canonicalStr, framed] at heq
  | bool a =>
    intro b x y _ _ heq
    cases b with
    | bool b => cases a <;> cases b <;> simp_all [canonical, same]
    | null | num | str | arr | obj => cases a <;> simp [canonical, canonicalStr, framed] at heq
  | num bits => exact num_determined bits
  | str s =>
    intro b x y _ _ heq
    cases b with
    | str s' =>
      obtain ⟨rfl, hxy⟩ := canonicalStr_cancel heq
      exact ⟨by simp [same], hxy⟩
    | bool b => cases b <;> simp [canonical, canonicalStr, framed] at heq
    | null | num | arr | obj => simp [canonical, canonicalStr, framed] at heq
  | arr items ih =>
    intro b x y hwf hwf' heq
    cases b with
    | arr items' =>
      obtain ⟨-, hlen, hbody⟩ := framed_cancel heq
      obtain ⟨hsame, hxy⟩ := items_determined ih hlen hwf hwf' hbody
      exact ⟨hsame, (List.cons.inj hxy).2⟩
    | bool b => cases b <;> simp [canonical, framed] at heq
    | null | num | str | obj => simp [canonical, canonicalStr, framed] at heq
  | obj members ih => exact obj_determined ih

/-- **A text determines its value.** -/
theorem canonical_inj {a b : Json} (ha : a.WF = true) (hb : b.WF = true)
    (h : a.canonical = b.canonical) : a.same b = true :=
  (a.determined b [] [] ha hb (by rw [h])).1

/-! ## Equal values have equal texts -/

theorem items_congr {items : List Json}
    (h : ∀ a ∈ items, ∀ b, a.WF = true → b.WF = true → a.same b = true → a.canonical = b.canonical)
    {items' : List Json} (hwf : wfItems items = true) (hwf' : wfItems items' = true)
    (hsame : sameItems items items' = true) :
    items.length = items'.length ∧ canonicalItems items = canonicalItems items' := by
  induction items generalizing items' with
  | nil =>
    obtain rfl := List.isEmpty_iff.1 hsame
    exact ⟨rfl, rfl⟩
  | cons a items ih =>
    cases items' with
    | nil => cases hsame
    | cons b items' =>
      simp only [wfItems, Bool.and_eq_true] at hwf hwf'
      simp only [sameItems, Bool.and_eq_true] at hsame
      obtain ⟨hlen, htext⟩ := ih (fun a ha => h a (List.mem_cons_of_mem _ ha)) hwf.2 hwf'.2 hsame.2
      rw [canonicalItems, canonicalItems, htext, List.length_cons, List.length_cons, hlen,
        h a List.mem_cons_self b hwf.1 hwf'.1 hsame.1]
      exact ⟨rfl, rfl⟩

/-- Lists of members that agree, in whatever order, agree in the order of their
    keys. -/
theorem byKey_congr {β : Type*} {l l' : List (String × β)} (hl : (l.map (·.1)).Nodup)
    (hl' : (l'.map (·.1)).Nodup) (hlen : l.length = l'.length) (h : ∀ m ∈ l, m ∈ l') :
    byKey l = byKey l' := by
  have hperm : l.Perm l' :=
    (List.subperm_of_subset (List.Nodup.of_map _ hl) h).perm_of_length_le hlen.ge
  have hsorted (l : List (String × β)) : (byKey l).Pairwise fun m m' => m.1 ≤ m'.1 := by
    have : Std.Total fun m m' : String × β => m.1 ≤ m'.1 := ⟨fun m m' => le_total m.1 m'.1⟩
    have : IsTrans (String × β) fun m m' => m.1 ≤ m'.1 := ⟨fun _ _ _ h h' => le_trans h h'⟩
    exact List.pairwise_insertionSort _ l
  refine List.Perm.eq_of_pairwise ?_ (hsorted l) (hsorted l')
    (((List.perm_insertionSort _ l).trans hperm).trans (List.perm_insertionSort _ l').symm)
  intro m m' hm hm' hle hle'
  have hm := hperm.mem_iff.1 (mem_byKey.1 hm)
  exact List.inj_on_of_nodup_map hl' hm (mem_byKey.1 hm') (le_antisymm hle hle')

theorem canonical_congr {a b : Json} (ha : a.WF = true) (hb : b.WF = true) (h : a.same b = true) :
    a.canonical = b.canonical := by
  induction a using induct generalizing b with
  | null => cases b <;> simp_all [same]
  | bool x => cases b <;> simp_all [same]
  | num bits =>
    cases b with
    | num bits' =>
      simp only [same, Bool.or_eq_true, decide_eq_true_eq, Bool.and_eq_true] at h
      rcases h with rfl | ⟨hz, hz'⟩
      · rfl
      · rw [canonical, canonical, if_pos hz, if_pos hz']
    | _ => simp [same] at h
  | str s => cases b <;> simp_all [same]
  | arr items ih =>
    cases b with
    | arr items' =>
      obtain ⟨hlen, htext⟩ := items_congr (fun a ha b hwf hwf' hs => ih a ha hwf hwf' hs) ha hb h
      rw [canonical, canonical, hlen, htext]
    | _ => simp [same] at h
  | obj members ih =>
    cases b with
    | obj members' =>
      simp only [same, Bool.and_eq_true, decide_eq_true_eq, sameMembers_iff] at h
      rw [wf_obj] at ha hb
      have hkeys (l : List (String × Json)) :
          (canonicalMembers l).map (·.1) = l.map (·.1) := by
        rw [canonicalMembers_eq, List.map_map]
        rfl
      have hmembers : byKey (canonicalMembers members) = byKey (canonicalMembers members') := by
        refine byKey_congr (hkeys members ▸ ha.1) (hkeys members' ▸ hb.1) ?_ ?_
        · simp [canonicalMembers_eq, h.1]
        · intro m hm
          rw [canonicalMembers_eq] at hm ⊢
          obtain ⟨m₀, hm₀, rfl⟩ := List.mem_map.1 hm
          obtain ⟨v, hlookup, hsame⟩ := h.2 m₀ hm₀
          have hv := mem_of_lookup hlookup
          refine List.mem_map.2 ⟨_, hv, ?_⟩
          rw [ih m₀ hm₀ (ha.2 m₀ hm₀) (hb.2 _ hv) hsame]
      rw [canonical, canonical, h.1, hmembers]
    | _ => simp [same] at h

/-- Values are equal when their texts are. -/
theorem same_iff {a b : Json} (ha : a.WF = true) (hb : b.WF = true) :
    a.same b = true ↔ a.canonical = b.canonical :=
  ⟨canonical_congr ha hb, canonical_inj ha hb⟩

theorem same_refl {a : Json} (ha : a.WF = true) : a.same a = true := (same_iff ha ha).2 rfl

theorem same_symm {a b : Json} (ha : a.WF = true) (hb : b.WF = true) (h : a.same b = true) : b.same a = true :=
  (same_iff hb ha).2 ((same_iff ha hb).1 h).symm

theorem same_trans {a b c : Json} (hab : a.same b = true) (hbc : b.same c = true) : a.same c = true := by
  induction a using induct generalizing b c with
  | null => cases b <;> simp_all [same]
  | bool x => cases b <;> simp_all [same]
  | num x =>
    cases b with
    | num y =>
      cases c with
      | num z =>
        simp only [same, Bool.or_eq_true, decide_eq_true_eq, Bool.and_eq_true] at *
        rcases hab with rfl | ⟨hx, hy⟩
        · exact hbc
        · rcases hbc with rfl | ⟨-, hz⟩
          · exact .inr ⟨hx, hy⟩
          · exact .inr ⟨hx, hz⟩
      | _ => simp [same] at hbc
    | _ => simp [same] at hab
  | str s => cases b <;> simp_all [same]
  | arr items ih =>
    cases b with
    | arr items' =>
      cases c with
      | arr items'' =>
        simp only [same] at *
        induction items generalizing items' items'' with
        | nil =>
          obtain rfl := List.isEmpty_iff.1 hab
          exact hbc
        | cons a items ihItems =>
          cases items' with
          | nil => cases hab
          | cons b items' =>
            cases items'' with
            | nil => cases hbc
            | cons c items'' =>
              simp only [sameItems, Bool.and_eq_true] at *
              exact ⟨ih a List.mem_cons_self hab.1 hbc.1,
                ihItems (fun a ha => ih a (List.mem_cons_of_mem _ ha)) _ hab.2 _ hbc.2⟩
      | _ => simp [same] at hbc
    | _ => simp [same] at hab
  | obj members ih =>
    cases b with
    | obj members' =>
      cases c with
      | obj members'' =>
        simp only [same, Bool.and_eq_true, decide_eq_true_eq, sameMembers_iff] at *
        refine ⟨hab.1.trans hbc.1, fun m hm => ?_⟩
        obtain ⟨v, hv, hsame⟩ := hab.2 m hm
        obtain ⟨v', hv', hsame'⟩ := hbc.2 _ (mem_of_lookup hv)
        exact ⟨v', hv', ih m hm hsame hsame'⟩
      | _ => simp [same] at hbc
    | _ => simp [same] at hab

/-! ## What equal values have in common -/

theorem finiteMembers_iff {members : List (String × Json)} :
    finiteMembers members = true ↔ ∀ m ∈ members, m.2.finite = true := by
  induction members with
  | nil => simp [finiteMembers]
  | cons m members ih => simp [finiteMembers, ih]

theorem isFinite_of_isZero {bits : BitVec 64} (h : isZero bits = true) : isFinite bits = true := by
  simp only [isZero, Bool.or_eq_true, decide_eq_true_eq] at h
  rcases h with rfl | rfl <;> decide

theorem finite_of_same {a b : Json} (h : a.same b = true) (hb : b.finite = true) : a.finite = true := by
  induction a using induct generalizing b with
  | num bits =>
    cases b with
    | num bits' =>
      simp only [same, Bool.or_eq_true, decide_eq_true_eq, Bool.and_eq_true] at h
      rcases h with rfl | ⟨hzero, -⟩
      · exact hb
      · exact isFinite_of_isZero hzero
    | _ => simp [same] at h
  | arr items ih =>
    cases b with
    | arr items' =>
      simp only [same] at h
      rw [finite, finiteItems_iff] at hb ⊢
      induction items generalizing items' with
      | nil => exact fun _ ha => nomatch ha
      | cons a items ihItems =>
        cases items' with
        | nil => cases h
        | cons b items' =>
          simp only [sameItems, Bool.and_eq_true] at h
          refine List.forall_mem_cons.2 ⟨ih a List.mem_cons_self h.1 (hb b List.mem_cons_self), ?_⟩
          exact ihItems (fun a ha => ih a (List.mem_cons_of_mem _ ha)) items' h.2
            fun b' hb' => hb b' (List.mem_cons_of_mem _ hb')
    | _ => simp [same] at h
  | obj members ih =>
    cases b with
    | obj members' =>
      simp only [same, Bool.and_eq_true, sameMembers_iff] at h
      rw [finite, finiteMembers_iff] at hb ⊢
      intro m hm
      obtain ⟨v, hv, hsame⟩ := h.2 m hm
      exact ih m hm hsame (hb _ (mem_of_lookup hv))
    | _ => simp [same] at h
  | _ => rfl

theorem same_null {a b : Json} (h : a.same b = true) : a = .null ↔ b = .null := by
  cases a <;> cases b <;> simp_all [same]

theorem same_str {a b : Json} (h : a.same b = true) (s : String) : a = .str s ↔ b = .str s := by
  cases a <;> cases b <;> simp_all [same]

theorem same_get {a b : Json} (ha : a.WF = true) (hb : b.WF = true) (h : a.same b = true) (key : String) :
    (a.get key).same (b.get key) = true := by
  have hlookup : ∀ {x y : List (String × Json)} {v : Json}, (obj x).same (obj y) = true → x.lookup key = some v →
      ∃ v', y.lookup key = some v' ∧ v.same v' = true := by
    intro x y v h hv
    simp only [same, Bool.and_eq_true, sameMembers_iff] at h
    exact h.2 _ (mem_of_lookup hv)
  cases a with
  | obj members =>
    cases b with
    | obj members' =>
      simp only [get]
      cases hv : members.lookup key with
      | some v =>
        obtain ⟨v', hv', hsame⟩ := hlookup h hv
        rw [hv']
        exact hsame
      | none =>
        cases hv' : members'.lookup key with
        | none => rfl
        | some v' =>
          obtain ⟨v, hv'', -⟩ := hlookup (same_symm ha hb h) hv'
          rw [hv] at hv''
          cases hv''
    | _ => simp [same] at h
  | _ => cases b <;> simp_all [same, get]

theorem sameItems_iff {items items' : List Json} :
    sameItems items items' = true ↔ List.Forall₂ (fun a b => a.same b = true) items items' := by
  induction items generalizing items' with
  | nil => cases items' <;> simp [sameItems]
  | cons a items ih => cases items' <;> simp [sameItems, ih]

end Json

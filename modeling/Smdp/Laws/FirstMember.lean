import Smdp.Ber.Length
import Smdp.Service

/-!
# Smdp — the ICCID read out of the metadata

`iccid_from_metadata` reads `BF 25`, a definite length, and the first member: `5A 0A` and ten
octets. It steps over the length without reading what it says, so a length that declares fewer
than the twelve octets of that member is taken too. What it returns is what the metadata holds
exactly where the length is not such a one (`readsExactly_iff`).
-/

namespace Smdp

variable {m : Bytes} {i : Iccid} {n p : Nat} {first : UInt8}

/-- `m` is `BF 25`, a definite length of value `n` in at most five octets, and the member
`5A 0A` with the ten octets of `i`, whatever comes after. -/
def StartsWithIccid (m : Bytes) (n : Nat) (i : Iccid) : Prop :=
  ∃ length rest, Ber.Definite length n ∧ length.length ≤ 5
    ∧ m = [0xbf, 0x25] ++ length ++ [0x5a, 0x0a] ++ i.val ++ rest

/-- The ICCID is read out of `m` exactly where it lies within the octets the length declares,
and everything else is not a StoreMetadataRequest. -/
structure ReadsExactly (m : Bytes) : Prop where
  accepted : ∀ i, iccidFromMetadata m = .ok (.ok i) ↔ ∃ n, StartsWithIccid m n i ∧ 12 ≤ n
  refused : (¬ ∃ i n, StartsWithIccid m n i ∧ 12 ≤ n) →
    iccidFromMetadata m = .ok (.error .notStoreMetadata)

/-! ## The length octets -/

theorem and_0x7f_toNat (b : UInt8) : (b &&& 0x7f).toNat = b.toNat % 128 := by
  rw [UInt8.toNat_and]
  exact Nat.and_two_pow_sub_one_eq_mod b.toNat 7

/-- Where the first member starts: after one length octet, or after those that the first
announces. -/
theorem firstMember_iff : firstMember first = some p ↔
    (first < 0x80 ∧ p = 3)
      ∨ ∃ k, 0 < k ∧ k ≤ 4 ∧ first.toNat = 0x80 + k ∧ p = 3 + k := by
  have hbyte : first.toNat < 256 := first.toNat_lt
  have hsmall : first < 0x80 ↔ first.toNat < 128 := Iff.rfl
  have hlarge : first ≥ 0x80 ↔ 128 ≤ first.toNat := Iff.rfl
  unfold firstMember
  rw [and_0x7f_toNat, hsmall]
  simp only [hlarge]
  constructor
  · intro h
    split at h
    · split at h
      · cases h
      · refine .inr ⟨first.toNat % 128, ?_, ?_, ?_, (Option.some.inj h).symm⟩ <;> omega
    · exact .inl ⟨by omega, (Option.some.inj h).symm⟩
  · rintro (⟨hshort, rfl⟩ | ⟨k, hpos, hfour, hfirst, rfl⟩)
    · rw [if_neg (by omega)]
    · have hk : first.toNat % 128 = k := by omega
      rw [if_pos (by omega), hk, if_neg (by omega)]

/-! ## What is read -/

/-- The member at `p` is `5A 0A` and the octets of `i`. -/
def MemberAt (m : Bytes) (p : Nat) (i : Iccid) : Prop :=
  m[p]? = some 0x5a ∧ m[p + 1]? = some 0x0a
    ∧ (getRange m (p + 2) 10).bind (Octets.ofBytes? 10) = some i

/-- An ICCID of ten octets is there, under its tag. -/
theorem memberAt_iff : MemberAt m p i ↔ ∃ rest, m.drop p = 0x5a :: 0x0a :: (i.val ++ rest) := by
  have h0 : m[p]? = (m.drop p)[0]? := by rw [List.getElem?_drop, Nat.add_zero]
  have h1 : m[p + 1]? = (m.drop p)[1]? := by rw [List.getElem?_drop]
  have h2 : m.drop (p + 2) = (m.drop p).drop 2 := by rw [List.drop_drop]
  have hlength : (m.drop p).length = m.length - p := List.length_drop
  unfold MemberAt getRange
  rw [h0, h1, h2]
  constructor
  · rintro ⟨htag, hsize, hvalue⟩
    match hdrop : m.drop p with
    | [] => rw [hdrop] at htag; cases htag
    | [a] => rw [hdrop] at hsize; cases hsize
    | a :: b :: value =>
      rw [hdrop] at htag hsize hvalue
      obtain rfl : a = 0x5a := Option.some.inj htag
      obtain rfl : b = 0x0a := Option.some.inj hsize
      split at hvalue
      · have hi : value.take 10 = i.val := Octets.ofBytes?_eq_some.mp hvalue
        refine ⟨value.drop 10, ?_⟩
        rw [← hi, List.take_append_drop]
      · cases hvalue
  · rintro ⟨rest, hdrop⟩
    rw [hdrop] at hlength ⊢
    have hten : i.val.length = 10 := i.property
    refine ⟨rfl, rfl, ?_⟩
    rw [if_pos (by simp at hlength; omega)]
    show Octets.ofBytes? 10 ((i.val ++ rest).take 10) = some i
    rw [List.take_left' hten]
    exact Octets.ofBytes?_val i

/-- A member is not at the end of what is shorter than it. -/
theorem MemberAt.length_le (h : MemberAt m p i) : p + 12 ≤ m.length := by
  obtain ⟨rest, hdrop⟩ := memberAt_iff.mp h
  have hlength : (m.drop p).length = m.length - p := List.length_drop
  have hten : i.val.length = 10 := i.property
  rw [hdrop] at hlength
  simp only [List.length_cons, List.length_append] at hlength
  omega

/-- `iccid_from_metadata` gets as far as the ICCID `i`. -/
def ReadsAt (m : Bytes) (i : Iccid) : Prop :=
  ∃ first tail p, m = 0xbf :: 0x25 :: first :: tail ∧ firstMember first = some p
    ∧ MemberAt m p i

theorem ReadsAt.four_le (h : ReadsAt m i) : 4 ≤ m.length := by
  obtain ⟨_, _, p, _, _, hmember⟩ := h
  have := hmember.length_le
  omega

/-- Past the tag, the member that the length leads to decides. -/
theorem iccidFromMetadata_tagged {tail : Bytes} (hm : m = 0xbf :: 0x25 :: first :: tail)
    (hfour : ¬ m.length < 4) :
    iccidFromMetadata m =
      match firstMember first with
      | none => .ok (.error .notStoreMetadata)
      | some p =>
        if m[p]? ≠ some 0x5a ∨ m[p + 1]? ≠ some 0x0a then .ok (.error .notStoreMetadata)
        else
          match (getRange m (p + 2) 10).bind (Octets.ofBytes? 10) with
          | none => .ok (.error .notStoreMetadata)
          | some iccid => .ok (.ok iccid) := by
  subst hm
  unfold iccidFromMetadata
  rw [if_neg hfour]
  rfl

theorem iccidFromMetadata_untagged {a b : UInt8} {tail : Bytes}
    (hm : m = a :: b :: first :: tail) (htag : ¬ (a = 0xbf ∧ b = 0x25))
    (hfour : ¬ m.length < 4) : iccidFromMetadata m = .ok (.error .notStoreMetadata) := by
  subst hm
  unfold iccidFromMetadata
  rw [if_neg hfour]
  show (if a ≠ 0xbf then _ else if b ≠ 0x25 then _ else _) = _
  by_cases ha : a = 0xbf
  · rw [if_neg (not_not.mpr ha), if_pos (fun hb => htag ⟨ha, hb⟩)]
    rfl
  · rw [if_pos ha]
    rfl

/-- `iccid_from_metadata` returns the ICCID it gets as far as, or the one error it has. -/
theorem iccidFromMetadata_cases (m : Bytes) :
    (∃ i, ReadsAt m i ∧ iccidFromMetadata m = .ok (.ok i))
      ∨ ((∀ i, ¬ ReadsAt m i) ∧ iccidFromMetadata m = .ok (.error .notStoreMetadata)) := by
  by_cases hfour : m.length < 4
  · refine .inr ⟨fun i hi => absurd hi.four_le (by omega), ?_⟩
    unfold iccidFromMetadata
    rw [if_pos hfour]
    rfl
  -- from four octets on, the tag and the first octet of the length are there
  match hm : m with
  | [] | [_] | [_, _] => simp at hfour
  | a :: b :: first :: tail =>
    by_cases htag : a = 0xbf ∧ b = 0x25
    · obtain ⟨rfl, rfl⟩ := htag
      -- it fails where the length is not definite, and else where the member is not there
      have hread := iccidFromMetadata_tagged rfl hfour
      cases hfirst : firstMember first with
      | none =>
        rw [hfirst] at hread
        refine .inr ⟨?_, hread⟩
        rintro i ⟨first', _, p, hm', hp, _⟩
        cases hm'
        rw [hfirst] at hp
        cases hp
      | some p =>
        rw [hfirst] at hread
        dsimp only at hread
        by_cases hmember : ∃ i, MemberAt (0xbf :: 0x25 :: first :: tail) p i
        · obtain ⟨i, hmember⟩ := hmember
          refine .inl ⟨i, ⟨first, tail, p, rfl, hfirst, hmember⟩, ?_⟩
          rw [hread, if_neg (by simp [hmember.1, hmember.2.1]), hmember.2.2]
        · refine .inr ⟨?_, ?_⟩
          · rintro i ⟨first', _, p', hm', hp', hmember'⟩
            cases hm'
            rw [hfirst] at hp'
            obtain rfl := Option.some.inj hp'
            exact hmember ⟨i, hmember'⟩
          · rw [hread]
            split
            · rfl
            · rename_i hboth
              rw [not_or, not_not, not_not] at hboth
              split
              · rfl
              · rename_i i hvalue
                exact absurd ⟨i, hboth.1, hboth.2, hvalue⟩ hmember
    · refine .inr ⟨?_, iccidFromMetadata_untagged rfl htag hfour⟩
      rintro i ⟨_, _, _, hm', _⟩
      cases hm'
      exact htag ⟨rfl, rfl⟩

/-! ## What it accepts -/

/-- It gets as far as `i` in what starts with `i`, whatever the length says. -/
theorem readsAt_iff : ReadsAt m i ↔ ∃ n, StartsWithIccid m n i := by
  constructor
  · rintro ⟨first, tail, p, rfl, hfirst, hmember⟩
    obtain ⟨rest, hdrop⟩ := memberAt_iff.mp hmember
    rcases firstMember_iff.mp hfirst with ⟨hshort, rfl⟩ | ⟨k, hpos, hfour, hlong, rfl⟩
    · refine ⟨_, [first], rest, .short hshort, by simp, ?_⟩
      simpa using hdrop
    · have hmany := hmember.length_le
      -- the octets the length announces are there, since the member is behind them
      have hk : (tail.take k).length = k := by
        rw [List.length_take]
        simp only [List.length_cons] at hmany
        omega
      have htail : tail.drop k = 0x5a :: 0x0a :: (i.val ++ rest) := by
        rwa [Nat.add_comm] at hdrop
      refine ⟨_, first :: tail.take k, rest, .long (by omega) (by omega), ?_, ?_⟩
      · rw [List.length_cons]
        omega
      · have hsplit := List.take_append_drop k tail
        rw [htail] at hsplit
        simp [hsplit]
  · rintro ⟨n, length, rest, hlength, hfive, rfl⟩
    cases hlength with
    | @short b small =>
      refine ⟨b, _, 3, by simp; rfl, firstMember_iff.mpr (.inl ⟨small, rfl⟩), ?_⟩
      exact memberAt_iff.mpr ⟨rest, by simp⟩
    | @long b octets some announced =>
      rw [List.length_cons] at hfive
      refine ⟨b, _, 3 + octets.length, by simp; rfl,
        firstMember_iff.mpr (.inr ⟨octets.length, some, by omega, announced, rfl⟩), ?_⟩
      refine memberAt_iff.mpr ⟨rest, ?_⟩
      rw [Nat.add_comm]
      simp

/-- The length and the ICCID that `m` starts with are not in doubt. -/
theorem StartsWithIccid.unique {n' : Nat} {i' : Iccid} (h : StartsWithIccid m n i)
    (h' : StartsWithIccid m n' i') : n = n' ∧ i = i' := by
  obtain ⟨length, rest, hlength, _, hm⟩ := h
  obtain ⟨length', rest', hlength', _, rfl⟩ := h'
  simp only [List.cons_append, List.nil_append, List.append_assoc, List.cons.injEq, true_and]
    at hm
  obtain ⟨-, hn, htail⟩ := hlength'.append_inj hlength hm
  simp only [List.cons.injEq, true_and] at htail
  have hi := (List.append_inj htail (i'.property.trans i.property.symm)).1
  exact ⟨hn.symm, Subtype.ext hi.symm⟩

/-- **The ICCID read is the one the metadata holds exactly where the length leaves room for it**,
and nothing makes the reading panic. The source skips the length octets without checking them, so
it reads an ICCID wherever one stands behind them (`readsAt_iff`), also where the length says it is
not there; two lengths cannot stand before one member, so no other metadata is in question. -/
theorem readsExactly_iff (m : Bytes) : (∃ r, iccidFromMetadata m = .ok r)
    ∧ (ReadsExactly m ↔ ¬ ∃ i n, StartsWithIccid m n i ∧ n < 12) := by
  rcases iccidFromMetadata_cases m with ⟨i, hread, hok⟩ | ⟨hnone, herror⟩
  · refine ⟨⟨_, hok⟩, ?_⟩
    obtain ⟨n, hn⟩ := readsAt_iff.mp hread
    constructor
    · rintro hexact ⟨i', n', hn', hsmall⟩
      obtain ⟨n'', hn'', hlarge⟩ := (hexact.accepted i).mp hok
      have := (hn''.unique hn').1
      omega
    · intro hroom
      have hlarge : 12 ≤ n := Nat.le_of_not_lt fun hsmall => hroom ⟨i, n, hn, hsmall⟩
      refine ⟨fun i' => ?_, fun hno => absurd ⟨i, n, hn, hlarge⟩ hno⟩
      rw [hok]
      constructor
      · intro h
        cases h
        exact ⟨n, hn, hlarge⟩
      · rintro ⟨n', hn', _⟩
        rw [(hn.unique hn').2]
  · refine ⟨⟨_, herror⟩, ?_⟩
    -- it got nowhere, so nothing that starts like that is there
    have hnothing : ∀ i n, ¬ StartsWithIccid m n i :=
      fun i n hn => hnone i (readsAt_iff.mpr ⟨n, hn⟩)
    refine iff_of_true ⟨fun i => ?_, fun _ => herror⟩ ?_
    · rw [herror]
      exact iff_of_false (by simp) fun ⟨n, hn, _⟩ => hnothing i n hn
    · rintro ⟨i, n, hn, _⟩
      exact hnothing i n hn

/-- A StoreMetadataRequest of no octets, with an ICCID after it. -/
def declaresNothing : Bytes := [0xbf, 0x25, 0x00, 0x5a, 0x0a, 1, 2, 3, 4, 5, 6, 7, 8, 9, 10]

/-- The ICCID that lies past the end of the request is read. -/
theorem iccid_past_end : ¬ ∀ m, ReadsExactly m := by
  intro hexact
  have hread : iccidFromMetadata declaresNothing
      = .ok (.ok ⟨[1, 2, 3, 4, 5, 6, 7, 8, 9, 10], rfl⟩) := by decide
  obtain ⟨n, hn, hlarge⟩ := ((hexact declaresNothing).accepted _).mp hread
  have hnone : StartsWithIccid declaresNothing 0 ⟨[1, 2, 3, 4, 5, 6, 7, 8, 9, 10], rfl⟩ :=
    ⟨[0], [], .short (by decide), by decide, rfl⟩
  have := (hn.unique hnone).1
  omega

end Smdp

/-!
# Rule filters

A filter is a set of conditions on the showings that a rule matches, held as bits.  A host's timer
can express four of them; `takingTimerPart` takes these from the timer and leaves the others alone.
-/

namespace DvrSchedule

/-- A set of conditions on showings. -/
structure Filter where
  bits : UInt32 := 0
  deriving DecidableEq, Repr, Inhabited

namespace Filter

def newEpisode : Filter := ⟨0x001⟩
def identifiableEpisode : Filter := ⟨0x002⟩
def firstShowing : Filter := ⟨0x004⟩
def primeTime : Filter := ⟨0x008⟩
def commercialFree : Filter := ⟨0x010⟩
def highDefinition : Filter := ⟨0x020⟩
def thisEpisode : Filter := ⟨0x040⟩
def thisSeries : Filter := ⟨0x080⟩
def thisTime : Filter := ⟨0x100⟩
def thisDayAndTime : Filter := ⟨0x200⟩
def thisChannel : Filter := ⟨0x400⟩

/-- The empty filter and then each condition, by ascending bit. -/
def conditions : List Filter :=
  [{}, newEpisode, identifiableEpisode, firstShowing, primeTime, commercialFree, highDefinition,
    thisEpisode, thisSeries, thisTime, thisDayAndTime, thisChannel]

/-- Every condition of `g` is one of `f`. -/
def contains (f g : Filter) : Bool := f.bits &&& g.bits == g.bits

/-- The conditions of either filter. -/
def union (f g : Filter) : Filter := ⟨f.bits ||| g.bits⟩

/-- The conditions of `f` that are not in `g`. -/
def without (f g : Filter) : Filter := ⟨f.bits &&& ~~~g.bits⟩

/-- The conditions of both filters. -/
def inter (f g : Filter) : Filter := ⟨f.bits &&& g.bits⟩

/-- The conditions that a timer can express. -/
def timerPart : Filter := ((firstShowing.union thisTime).union thisDayAndTime).union thisChannel

/-- The conditions that pin a rule to a slot. -/
def slot : Filter := (thisChannel.union thisTime).union thisDayAndTime

/-- The timer-managed conditions of `g` and all others of `f`. -/
def takingTimerPart (f g : Filter) : Filter :=
  (f.without timerPart).union (g.inter timerPart)

/-! ## What a filter contains -/

variable {f g k : Filter}

theorem contains_iff : f.contains g ↔ f.inter g = g := by
  obtain ⟨f⟩ := f
  obtain ⟨g⟩ := g
  simp [contains, inter]

theorem union_inter (f g k : Filter) : (f.union g).inter k = (f.inter k).union (g.inter k) := by
  refine congrArg Filter.mk (UInt32.toBitVec_inj.1 ?_)
  ext i
  simp [union, inter, Bool.and_or_distrib_right]

theorem without_inter (f g k : Filter) :
    (f.without g).inter k = (f.inter k).without (g.inter k) := by
  refine congrArg Filter.mk (UInt32.toBitVec_inj.1 ?_)
  ext i hi
  cases h : k.bits.toBitVec[i] <;> simp [h, inter, without]

theorem union_empty (f : Filter) : f.union {} = f := congrArg Filter.mk UInt32.or_zero

theorem without_empty (f : Filter) : f.without {} = f := congrArg Filter.mk (by simp)

theorem contains_union_self (f g : Filter) : (f.union g).contains g := by
  rw [contains_iff]
  refine congrArg Filter.mk (UInt32.toBitVec_inj.1 ?_)
  ext i
  simpa [union] using Or.inr

/-- Conditions that have nothing in common with `k` do not bear on whether `k` is contained. -/
theorem contains_union (h : g.inter k = {}) : (f.union g).contains k = f.contains k := by
  rw [Bool.eq_iff_iff, contains_iff, contains_iff, union_inter, h, union_empty]

theorem contains_without (h : g.inter k = {}) : (f.without g).contains k = f.contains k := by
  rw [Bool.eq_iff_iff, contains_iff, contains_iff, without_inter, h, without_empty]

/-- What was taken out is not contained. -/
theorem not_contains_without (h : g.contains k) (hk : k ≠ {}) :
    (f.without g).contains k = false := by
  rw [Bool.eq_false_iff, Ne, contains_iff, without_inter, contains_iff.1 h]
  intro e
  refine hk (e.symm.trans (congrArg Filter.mk (UInt32.toBitVec_inj.1 ?_)))
  ext i
  simp [inter]

/-! ## The part of a timer -/

/-- A single condition is contained, or there is nothing of it. -/
theorem inter_twoPow (i : Nat) (f : Filter) :
    let k : Filter := ⟨⟨BitVec.twoPow 32 i⟩⟩
    f.inter k = k ∨ f.inter k = {} := by
  intro k
  by_cases h : f.bits.toBitVec.getLsbD i
  · refine Or.inl (congrArg Filter.mk (UInt32.toBitVec_inj.1 ?_))
    show f.bits.toBitVec &&& BitVec.twoPow 32 i = _
    rw [BitVec.and_twoPow, if_pos h]
  · refine Or.inr (congrArg Filter.mk (UInt32.toBitVec_inj.1 ?_))
    show f.bits.toBitVec &&& BitVec.twoPow 32 i = _
    rw [BitVec.and_twoPow, if_neg h]
    rfl

/-- The conditions that a timer can express, one by one. -/
def timerConditions : List Filter := [firstShowing, thisTime, thisDayAndTime, thisChannel]

theorem inter_of_mem_timerConditions (hk : k ∈ timerConditions) (f : Filter) :
    f.inter k = if f.contains k then k else {} := by
  have hatom : f.inter k = k ∨ f.inter k = {} := by
    simp only [timerConditions, List.mem_cons, List.not_mem_nil, or_false] at hk
    rcases hk with rfl | rfl | rfl | rfl
    · exact inter_twoPow 2 f
    · exact inter_twoPow 8 f
    · exact inter_twoPow 9 f
    · exact inter_twoPow 10 f
  split
  · rename_i h
    exact contains_iff.1 h
  · rename_i h
    exact hatom.resolve_left fun e => h (contains_iff.2 e)

theorem inter_union (f g k : Filter) : f.inter (g.union k) = (f.inter g).union (f.inter k) := by
  refine congrArg Filter.mk (UInt32.toBitVec_inj.1 ?_)
  ext i
  simp [union, inter, Bool.and_or_distrib_left]

theorem without_union_inter (f g : Filter) : (f.without g).union (f.inter g) = f := by
  refine congrArg Filter.mk (UInt32.toBitVec_inj.1 ?_)
  ext i hi
  cases h : g.bits.toBitVec[i] <;> simp [h, inter, without]

theorem contains_takingTimerPart (hk : timerPart.contains k) (f g : Filter) :
    (f.takingTimerPart g).contains k = g.contains k := by
  have hin : (f.takingTimerPart g).inter k = g.inter k := by
    refine congrArg Filter.mk (UInt32.toBitVec_inj.1 ?_)
    have hbits : timerPart.bits.toBitVec &&& k.bits.toBitVec = k.bits.toBitVec :=
      congrArg (fun f : Filter => f.bits.toBitVec) (contains_iff.1 hk)
    ext i hi
    have hbit : k.bits.toBitVec[i] = true → timerPart.bits.toBitVec[i] = true := by
      intro h
      rw [← hbits, BitVec.getElem_and, Bool.and_eq_true] at h
      exact h.1
    cases h : k.bits.toBitVec[i]
    · simp [takingTimerPart, union, inter, without, h]
    · simp [takingTimerPart, union, inter, without, h, hbit h]
  rw [Bool.eq_iff_iff, contains_iff, contains_iff, hin]

/-- Taking the timer's part of `g` changes nothing exactly if `g` agrees in each of the conditions
that a timer can express. -/
theorem takingTimerPart_eq_self_iff :
    f.takingTimerPart g = f ↔ ∀ k ∈ timerConditions, g.contains k = f.contains k := by
  constructor
  · intro h k hk
    have hpart : timerPart.contains k := by
      simp only [timerConditions, List.mem_cons, List.not_mem_nil, or_false] at hk
      rcases hk with rfl | rfl | rfl | rfl <;> decide
    rw [← contains_takingTimerPart hpart f g, h]
  · intro h
    have hinter : g.inter timerPart = f.inter timerPart := by
      have hatom {k : Filter} (hk : k ∈ timerConditions) : g.inter k = f.inter k := by
        rw [inter_of_mem_timerConditions hk, inter_of_mem_timerConditions hk, h k hk]
      simp only [timerPart, inter_union]
      rw [hatom (k := firstShowing) (by decide), hatom (k := thisTime) (by decide),
        hatom (k := thisDayAndTime) (by decide), hatom (k := thisChannel) (by decide)]
    rw [takingTimerPart, hinter, without_union_inter]

end Filter

end DvrSchedule

import Mathlib.Analysis.SpecialFunctions.Complex.Arg

/-! # Great circles

Places on the unit sphere by latitude and longitude, in radians, and how a place is
seen from another one: how far along the great circle, and in which direction between
north and east. `atan2` is `Complex.arg`.
-/

namespace PtzAgx

open Real

noncomputable section

/-! ## Polar coordinates -/

/-- A vector in space. -/
@[ext] structure Space where
  x : ℝ
  y : ℝ
  z : ℝ

/-- What lies in this direction, from the first axis towards the second and then up
    to the third, and at this distance. -/
def polar (azimuth elevation range : ℝ) : Space :=
  ⟨range * cos elevation * cos azimuth, range * cos elevation * sin azimuth, range * sin elevation⟩

/-- The angle of the point `(x, y)`, from the first axis towards the second. -/
def atan2 (y x : ℝ) : ℝ := Complex.arg ⟨x, y⟩

section Polar

variable {x : ℝ}

theorem norm_mk (x y : ℝ) : ‖(⟨x, y⟩ : ℂ)‖ = √(x ^ 2 + y ^ 2) := Complex.norm_eq_sqrt_sq_add_sq _

theorem sqrt_mul_cos_atan2 (y x : ℝ) : √(x ^ 2 + y ^ 2) * cos (atan2 y x) = x := by
  rw [← norm_mk]
  exact Complex.norm_mul_cos_arg ⟨x, y⟩

theorem sqrt_mul_sin_atan2 (y x : ℝ) : √(x ^ 2 + y ^ 2) * sin (atan2 y x) = y := by
  rw [← norm_mk]
  exact Complex.norm_mul_sin_arg ⟨x, y⟩

theorem atan2_mem (y x : ℝ) : atan2 y x ∈ Set.Ioc (-π) π := Complex.arg_mem_Ioc _

theorem abs_atan2_le (y : ℝ) (right : 0 ≤ x) : |atan2 y x| ≤ π / 2 :=
  Complex.abs_arg_le_pi_div_two_iff.mpr right

/-- A vector lies where its polar coordinates say. -/
theorem polar_atan2 (x y z : ℝ) :
    polar (atan2 y x) (atan2 z √(x ^ 2 + y ^ 2)) √(x ^ 2 + y ^ 2 + z ^ 2) = ⟨x, y, z⟩ := by
  have ground : √(x ^ 2 + y ^ 2) ^ 2 = x ^ 2 + y ^ 2 := sq_sqrt (by positivity)
  have level := sqrt_mul_cos_atan2 z √(x ^ 2 + y ^ 2)
  have height := sqrt_mul_sin_atan2 z √(x ^ 2 + y ^ 2)
  rw [ground] at level height
  simp only [polar, level, height, sqrt_mul_cos_atan2, sqrt_mul_sin_atan2]

end Polar

/-! ## Places and directions -/

def Space.dot (u v : Space) : ℝ := u.x * v.x + u.y * v.y + u.z * v.z

/-- The place at this latitude and longitude. -/
def place (φ l : ℝ) : Space := ⟨cos φ * cos l, cos φ * sin l, sin φ⟩

/-- Where north is at a place. -/
def north (φ l : ℝ) : Space := ⟨-(sin φ * cos l), -(sin φ * sin l), cos φ⟩

/-- Where east is at every place of a meridian. -/
def east (l : ℝ) : Space := ⟨-sin l, cos l, 0⟩

/-- The angle between two places, seen from the middle of the sphere. -/
def arc (u v : Space) : ℝ := arccos (u.dot v)

def haversine (φ l φ' l' : ℝ) : ℝ :=
  sin ((φ' - φ) / 2) ^ 2 + sin ((l' - l) / 2) ^ 2 * cos φ * cos φ'

section Seen

variable (φ l φ' l' : ℝ)

/-- The three directions at a place are a frame: a vector's length is that of its parts. -/
theorem dot_frame (v : Space) :
    v.dot v = (place φ l).dot v ^ 2 + ((north φ l).dot v ^ 2 + (east l).dot v ^ 2) := by
  have meridian := sin_sq_add_cos_sq l
  have parallel := sin_sq_add_cos_sq φ
  simp only [Space.dot, place, north, east]
  linear_combination
    -((cos l * v.x + sin l * v.y) ^ 2 + v.z ^ 2) * parallel - (v.x ^ 2 + v.y ^ 2) * meridian

theorem place_dot_self : (place φ l).dot (place φ l) = 1 := by
  have meridian := sin_sq_add_cos_sq l
  have parallel := sin_sq_add_cos_sq φ
  simp only [Space.dot, place]
  linear_combination cos φ ^ 2 * meridian + parallel

theorem north_dot_place :
    (north φ l).dot (place φ' l') = cos φ * sin φ' - sin φ * cos φ' * cos (l' - l) := by
  rw [cos_sub]
  simp only [Space.dot, place, north]
  ring

theorem east_dot_place : (east l).dot (place φ' l') = sin (l' - l) * cos φ' := by
  rw [sin_sub]
  simp only [Space.dot, place, east]
  ring

theorem place_dot_place : (place φ l).dot (place φ' l') = 1 - 2 * haversine φ l φ' l' := by
  have half (x : ℝ) : 2 * sin (x / 2) ^ 2 = 1 - cos x := by
    have double := cos_sq' (x / 2)
    have twice := cos_sq (x / 2)
    rw [mul_div_cancel₀ x two_ne_zero] at twice
    linarith
  have parallel := half (φ' - φ)
  have meridian := half (l' - l)
  rw [cos_sub] at parallel meridian
  simp only [Space.dot, place, haversine]
  linear_combination parallel + cos φ * cos φ' * meridian

theorem haversine_mem : haversine φ l φ' l' ∈ Set.Icc 0 1 := by
  have seen := place_dot_place φ l φ' l'
  have frame := dot_frame φ l (place φ' l')
  rw [place_dot_self, seen] at frame
  constructor <;> nlinarith [sq_nonneg ((north φ l).dot (place φ' l')),
    sq_nonneg ((east l).dot (place φ' l'))]

theorem two_mul_atan2_haversine :
    2 * atan2 (√(haversine φ l φ' l')) (√(1 - haversine φ l φ' l')) =
      arc (place φ l) (place φ' l') := by
  obtain ⟨low, high⟩ := haversine_mem φ l φ' l'
  have unit : √(√(1 - haversine φ l φ' l') ^ 2 + √(haversine φ l φ' l') ^ 2) = 1 := by
    rw [sq_sqrt low, sq_sqrt (by linarith)]
    simp
  have height := sqrt_mul_sin_atan2 (√(haversine φ l φ' l')) (√(1 - haversine φ l φ' l'))
  have right := abs_atan2_le (√(haversine φ l φ' l')) (sqrt_nonneg (1 - haversine φ l φ' l'))
  have above : 0 ≤ atan2 (√(haversine φ l φ' l')) (√(1 - haversine φ l φ' l')) :=
    Complex.arg_nonneg_iff.mpr (sqrt_nonneg _)
  rw [unit, one_mul] at height
  rw [abs_of_nonneg above] at right
  rw [arc, place_dot_place, ← arccos_cos (by linarith : 0 ≤ 2 * atan2 _ _) (by linarith),
    cos_two_mul, cos_sq', height, sq_sqrt low]
  ring_nf

theorem sin_arc : sin (arc (place φ l) (place φ' l')) =
    √((north φ l).dot (place φ' l') ^ 2 + (east l).dot (place φ' l') ^ 2) := by
  have frame := dot_frame φ l (place φ' l')
  rw [place_dot_self] at frame
  rw [arc, sin_arccos]
  congr 1
  linarith

/-- `(x, y)` is where a place is on a map drawn around another one, to the north and to
    the east of it: in its direction, and as far away as along the great circle. -/
structure Drawn (x y : ℝ) : Prop where
  far : x ^ 2 + y ^ 2 = arc (place φ l) (place φ' l') ^ 2
  northward : x * sin (arc (place φ l) (place φ' l')) = arc (place φ l)
    (place φ' l') * (north φ l).dot (place φ' l')
  eastward : y * sin (arc (place φ l) (place φ' l')) =
    arc (place φ l) (place φ' l') * (east l).dot (place φ' l')

theorem drawn_atan2 :
    Drawn φ l φ' l'
      (arc (place φ l) (place φ' l') *
        cos (atan2 ((east l).dot (place φ' l')) ((north φ l).dot (place φ' l'))))
      (arc (place φ l) (place φ' l') *
        sin (atan2 ((east l).dot (place φ' l')) ((north φ l).dot (place φ' l')))) where
  far := by
    rw [mul_pow, mul_pow, ← mul_add, cos_sq_add_sin_sq, mul_one]
  northward := by
    have along := sqrt_mul_cos_atan2 ((east l).dot (place φ' l')) ((north φ l).dot (place φ' l'))
    rw [← sin_arc] at along
    linear_combination arc (place φ l) (place φ' l') * along
  eastward := by
    have aside := sqrt_mul_sin_atan2 ((east l).dot (place φ' l')) ((north φ l).dot (place φ' l'))
    rw [← sin_arc] at aside
    linear_combination arc (place φ l) (place φ' l') * aside

end Seen

end

end PtzAgx

/-!
# Several buffers in a row

Data is gathered from several buffers, or scattered over several buffers, each of
which is filled before the next one.  A buffer that the data does not fill keeps
what it held behind it.
-/

namespace Apue
namespace Foundation

universe u

variable {α : Type u}

def scatter : List (List α) -> List α -> List (List α)
  | [], _ => []
  | b :: rest, data =>
      (data.take b.length ++ b.drop data.length) :: scatter rest (data.drop b.length)

def room (bufs : List (List α)) : Nat :=
  bufs.flatten.length

@[simp] theorem room_nil : room ([] : List (List α)) = 0 := rfl

@[simp] theorem room_cons (b : List α) (rest : List (List α)) :
    room (b :: rest) = b.length + room rest := by
  unfold room
  rw [List.flatten_cons, List.length_append]

theorem filled_length (b data : List α) :
    (data.take b.length ++ b.drop data.length).length = b.length := by
  rw [List.length_append, List.length_take, List.length_drop]
  lia

theorem map_length_scatter (bufs : List (List α)) (data : List α) :
    (scatter bufs data).map List.length = bufs.map List.length := by
  induction bufs generalizing data with
  | nil => rfl
  | cons b rest ih =>
      unfold scatter
      rw [List.map_cons, List.map_cons, ih, filled_length]

theorem flatten_scatter (bufs : List (List α)) (data : List α) :
    (scatter bufs data).flatten =
      data.take (room bufs) ++ bufs.flatten.drop data.length := by
  induction bufs generalizing data with
  | nil => simp [scatter]
  | cons b rest ih =>
      unfold scatter
      rw [List.flatten_cons, List.flatten_cons, ih, room_cons, List.drop_append,
        List.length_drop, List.append_assoc]
      rcases Nat.le_total data.length b.length with hle | hle
      · -- the data ends in this buffer, and the others are left alone
        have hnil : data.drop b.length = [] := List.drop_eq_nil_of_le hle
        rw [hnil, List.take_nil, List.nil_append, List.take_of_length_le hle,
          List.take_of_length_le (by lia)]
      · have hdrop : b.drop data.length = [] := List.drop_eq_nil_of_le hle
        have hsplit : data.take (b.length + room rest) =
            data.take b.length ++ (data.drop b.length).take (room rest) :=
          List.take_add
        rw [hdrop, hsplit, List.nil_append, List.nil_append, List.append_assoc]

end Foundation
end Apue

/-! Sorting by texts in the order of their code points; equal texts keep their order. -/

namespace PreviewApps.Text

def sortBy (f : α → String) (xs : List α) : List α :=
  xs.mergeSort fun a b => decide (¬ f b < f a)

end PreviewApps.Text

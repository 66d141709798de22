import FlutterQuickjs.Binding.Plain
import FlutterQuickjs.Binding.Instance

namespace FlutterQuickjs.Conversion

open Engine Binding ValueConverter
open Effect

variable [PackageFfi] {rely : World → World → Prop} {n : Nat} {ctx : Ctx} {w : World} {p obj val : Ptr}
  {s : Units}

end FlutterQuickjs.Conversion
